import DuckIceberg.ApplyDeletes
import DuckIceberg.Schema

/-!
# The row numbers of a chunk

Three callbacks of `IcebergMultiFileReader` hand an index to each other: `InitializeGlobalState` looks
for a projected column that is called `file_row_number` and adds one if there is none,
`CreateColumnMapping` has the added one read from the file, and `FinalizeChunk` reads the row numbers
from the vector with that index.  They are those of the file exactly when no projected column has that
name, and no column of the file that comes after the generated one (`physicalRowNumbers_iff`).

The mapping of the projected columns and the reading itself are DuckDB's.
-/

namespace DuckIceberg

open Strings

/-- `MultiFileReaderColumnDefinition`; the identifier is the field id. -/
structure MultiFileReaderColumnDefinition where
  name : String
  type : LogicalType
  identifier : Option ℤ := none

/-- `MultiFileReaderData`: the columns that are read from the file with the vectors they go to, and
the vectors that have the same value in every row. -/
structure MultiFileReaderData (ν : Type) where
  columnIds : List ℕ := []
  columnIndexes : List ColumnIndex := []
  columnMapping : List ℕ := []
  constantMap : List (ℕ × ν) := []
  emptyColumns : Bool := true

/-- `IcebergMultiFileReaderGlobalState` -/
structure IcebergMultiFileReaderGlobalState where
  extraColumns : List LogicalType
  fileRowNumberIdx : Option ℕ := none

/-- `IsRowIdColumn` -/
def isRowIdColumn (globalId : ℕ) : Prop := globalId = invalidIndex

instance (globalId : ℕ) : Decidable (isRowIdColumn globalId) :=
  inferInstanceAs (Decidable (globalId = invalidIndex))

namespace IcebergMultiFileReader

/-! ### The callbacks -/

/-- `Bind`: the columns of the schema -/
def bindColumns (schema : List IcebergColumnDefinition) : List MultiFileReaderColumnDefinition :=
  schema.map fun item => ⟨item.name, item.type, some item.id⟩

/-- `columns_to_map` -/
def columnsToMap : List (String × LogicalType) := [("file_row_number", .simple .bigint)]

/-- The loop that fills `selected_columns`. -/
def selectColumns (globalColumns : List MultiFileReaderColumnDefinition) :
    List ℕ → ℕ → CIMap ℕ → Except Error (CIMap ℕ)
  | [], _, selectedColumns => .ok selectedColumns
  | globalId :: globalColumnIds, i, selectedColumns =>
    if isRowIdColumn globalId then selectColumns globalColumns globalColumnIds (i + 1) selectedColumns
    else
      match globalColumns[globalId]? with
      | none => .error ⟨.internal, "Attempted to access index out of range of a vector"⟩
      | some column => selectColumns globalColumns globalColumnIds (i + 1)
          (selectedColumns.insertNew column.name i)

/-- The loop that maps every column to one of the projection or to one that is added; `added` are the
extra columns so far. -/
def mapColumns (selectedColumns : CIMap ℕ) (projected : ℕ) :
    List (String × LogicalType) → List LogicalType → List (String × ℕ) × List LogicalType
  | [], added => ([], added)
  | extraColumn :: columns, added =>
    match NormMap.find? selectedColumns extraColumn.1 with
    | some i =>
      let rest := mapColumns selectedColumns projected columns added
      ((extraColumn.1, i) :: rest.1, rest.2)
    | none =>
      let rest := mapColumns selectedColumns projected columns (added ++ [extraColumn.2])
      ((extraColumn.1, projected + added.length) :: rest.1, rest.2)

/-- The loop that stores the indices in the global state. -/
def storeIndices : List (String × ℕ) → IcebergMultiFileReaderGlobalState →
    Except Error IcebergMultiFileReaderGlobalState
  | [], res => .ok res
  | (columnName, columnIndex) :: mappedColumns, res =>
    if ciEquals columnName "file_row_number" then
      if res.fileRowNumberIdx.isSome then
        .error ⟨.invalidInput, "'file_row_number' already set!"⟩
      else storeIndices mappedColumns { res with fileRowNumberIdx := some columnIndex }
    else .error ⟨.internal, "Extra column type not handled"⟩

/-- `InitializeGlobalState` -/
def initializeGlobalState (globalColumns : List MultiFileReaderColumnDefinition)
    (globalColumnIds : List ℕ) : Except Error IcebergMultiFileReaderGlobalState := do
  let selectedColumns ← selectColumns globalColumns globalColumnIds 0 NormMap.empty
  let mapped := mapColumns selectedColumns globalColumnIds.length columnsToMap []
  storeIndices mapped.1 { extraColumns := mapped.2 }

/-- `name_map`: the columns of a file by their names -/
def nameMap (localColumns : List MultiFileReaderColumnDefinition) : CIMap ℕ :=
  NormMap.insertAll NormMap.empty (localColumns.zipIdx.map fun c => (c.1.name, c.2))

variable {ν : Type}

/-- `CreateColumnMapping`; `byFieldId` is `CreateColumnMappingByFieldId` -/
def createColumnMapping
    (byFieldId : List MultiFileReaderColumnDefinition → List MultiFileReaderColumnDefinition →
      List ℕ → MultiFileReaderData ν → Except Error (MultiFileReaderData ν))
    (localColumns globalColumns : List MultiFileReaderColumnDefinition) (globalColumnIds : List ℕ)
    (globalState : IcebergMultiFileReaderGlobalState) (readerData : MultiFileReaderData ν) :
    Except Error (MultiFileReaderData ν) := do
  let readerData ← byFieldId localColumns globalColumns globalColumnIds readerData
  match globalState.fileRowNumberIdx with
  | none => return readerData
  | some fileRowNumberIdx =>
    let readerData ←
      if globalColumnIds.length ≤ fileRowNumberIdx then
        match NormMap.find? (nameMap localColumns) "file_row_number" with
        | none => throw ⟨.io, "Failed to find the file_row_number column"⟩
        | some entry => pure { readerData with
            columnIds := readerData.columnIds ++ [entry]
            columnIndexes := readerData.columnIndexes ++ [{ index := entry }]
            columnMapping := readerData.columnMapping ++ [fileRowNumberIdx] }
      else pure readerData
    return { readerData with emptyColumns := readerData.columnIds.isEmpty }

/-- The vector that `FinalizeChunk` reads the row numbers from. -/
def rowNumberColumn (globalState : IcebergMultiFileReaderGlobalState) (chunk : VectorChunk ν) :
    Option (ColumnVector ν) :=
  globalState.fileRowNumberIdx.bind fun i => chunk.data[i]?

/-! ### Reading a file -/

/-- A column of a data file, with its value in every row. -/
structure LocalColumn (ν : Type) where
  definition : MultiFileReaderColumnDefinition
  value : ℕ → ν

/-- A data file as the Parquet reader shows it: among its columns is the generated one, with the
number of the row. -/
structure LocalFile (ν : Type) (bigint : ℤ → ν) where
  columns : List (LocalColumn ν)
  generated : ℕ
  generated_eq : columns[generated]? =
    some ⟨⟨"file_row_number", .simple .bigint, none⟩, fun pos => bigint pos⟩

/-- `local_columns` -/
def LocalFile.localColumns {bigint : ℤ → ν} (file : LocalFile ν bigint) :
    List MultiFileReaderColumnDefinition :=
  file.columns.map LocalColumn.definition

/-- Where the values of a vector come from. -/
inductive Source (ν : Type)
  | column (i : ℕ)
  | constant (value : ν)

/-- What is written to the vectors, in order. -/
def written (readerData : MultiFileReaderData ν) : List (ℕ × Source ν) :=
  readerData.columnMapping.zip (readerData.columnIds.map .column) ++
    readerData.constantMap.map fun (i, value) => (i, .constant value)

/-- Where the values of the vector with this index come from: what is written last stays. -/
def source (readerData : MultiFileReaderData ν) (i : ℕ) : Option (Source ν) :=
  (written readerData).reverse.lookup i

variable [Inhabited ν] {bigint : ℤ → ν}

/-- The value in a row of the file. -/
def Source.value (file : LocalFile ν bigint) : Source ν → ℕ → ν
  | .column i, pos => (file.columns[i]?.map fun c => c.value pos).getD default
  | .constant value, _ => value

/-- A chunk with the rows of the file at these positions. -/
structure FilledFrom (file : LocalFile ν bigint) (readerData : MultiFileReaderData ν)
    (positions : List ℕ) (chunk : VectorChunk ν) : Prop where
  size : chunk.size = positions.length
  values : ∀ i s, source readerData i = some s → ∃ v, chunk.data[i]? = some v ∧
    ∀ k (hk : k < positions.length), v.value k = s.value file positions[k]

/-- The projected columns have the values of the columns of the table. -/
def Projected (file : LocalFile ν bigint) (globalColumns : List MultiFileReaderColumnDefinition)
    (globalColumnIds : List ℕ) (tableValue : MultiFileReaderColumnDefinition → ℕ → ν)
    (readerData : MultiFileReaderData ν) : Prop :=
  ∀ i globalId column, globalColumnIds[i]? = some globalId → ¬ isRowIdColumn globalId →
    globalColumns[globalId]? = some column →
      ∃ s, source readerData i = some s ∧ s.value file = tableValue column

/-- What is relied on of the mapping by field id: it fills the projected columns with the values of the
columns of the table, and no other vectors. -/
structure FillsProjection (file : LocalFile ν bigint)
    (globalColumns : List MultiFileReaderColumnDefinition) (globalColumnIds : List ℕ)
    (tableValue : MultiFileReaderColumnDefinition → ℕ → ν) (readerData : MultiFileReaderData ν) :
    Prop where
  lengths : readerData.columnMapping.length = readerData.columnIds.length
  mapped : ∀ i ∈ readerData.columnMapping, i < globalColumnIds.length
  constants : ∀ c ∈ readerData.constantMap, c.1 < globalColumnIds.length
  projected : Projected file globalColumns globalColumnIds tableValue readerData

/-- The row numbers that deletes are applied to are those of the file. -/
structure Physical (int64 : ν → ℤ) (file : LocalFile ν bigint)
    (globalColumns : List MultiFileReaderColumnDefinition) (globalColumnIds : List ℕ)
    (tableValue : MultiFileReaderColumnDefinition → ℕ → ν)
    (globalState : IcebergMultiFileReaderGlobalState) (readerData : MultiFileReaderData ν) :
    Prop where
  /-- they are read into a vector of their own, from the generated column -/
  generated : ∃ i, globalState.fileRowNumberIdx = some i ∧ globalColumnIds.length ≤ i ∧
    globalState.extraColumns[i - globalColumnIds.length]? = some (.simple .bigint) ∧
    source readerData i = some (.column file.generated)
  /-- the vector has the position of every row of a chunk -/
  positions : ∀ positions chunk, FilledFrom file readerData positions chunk →
    ∃ v, rowNumberColumn globalState chunk = some v ∧
      ∀ k (hk : k < positions.length), int64 (v.value k) = positions[k]
  projected : Projected file globalColumns globalColumnIds tableValue readerData

/-- The callbacks have the row numbers of the file read. -/
def PhysicalRowNumbers (int64 : ν → ℤ)
    (byFieldId : List MultiFileReaderColumnDefinition → List MultiFileReaderColumnDefinition →
      List ℕ → MultiFileReaderData ν → Except Error (MultiFileReaderData ν))
    (file : LocalFile ν bigint) (globalColumns : List MultiFileReaderColumnDefinition)
    (globalColumnIds : List ℕ) (tableValue : MultiFileReaderColumnDefinition → ℕ → ν)
    (readerData : MultiFileReaderData ν) : Prop :=
  ∃ globalState readerData', initializeGlobalState globalColumns globalColumnIds = .ok globalState ∧
    createColumnMapping byFieldId file.localColumns globalColumns globalColumnIds globalState
      readerData = .ok readerData' ∧
    Physical int64 file globalColumns globalColumnIds tableValue globalState readerData'

/-! ### The index in the global state -/

section GlobalState

variable {globalColumns : List MultiFileReaderColumnDefinition} {globalColumnIds : List ℕ}
  {selectedColumns selectedColumns' : CIMap ℕ}

/-- A projected column has this name. -/
def Selects (globalColumns : List MultiFileReaderColumnDefinition) (globalColumnIds : List ℕ)
    (name : String) : Prop :=
  ∃ globalId ∈ globalColumnIds, ¬ isRowIdColumn globalId ∧
    ∃ column, globalColumns[globalId]? = some column ∧ ciEquals column.name name

/-- What is selected under a name is a projected column of that name, and its index. -/
theorem selectColumns_spec {i : ℕ}
    (h : selectColumns globalColumns globalColumnIds i selectedColumns = .ok selectedColumns')
    (name : String) :
    (NormMap.find? selectedColumns' name = none ↔
        NormMap.find? selectedColumns name = none ∧ ¬ Selects globalColumns globalColumnIds name) ∧
      ∀ j, NormMap.find? selectedColumns' name = some j →
        NormMap.find? selectedColumns name = some j ∨ j < i + globalColumnIds.length := by
  induction globalColumnIds generalizing i selectedColumns with
  | nil =>
    cases h
    exact ⟨by simp [Selects], fun j hj => Or.inl hj⟩
  | cons globalId ids ih =>
    have hlen : i + (globalId :: ids).length = i + 1 + ids.length := by
      rw [List.length_cons]
      omega
    rw [selectColumns] at h
    split_ifs at h with hrow
    · obtain ⟨hnone, hsome⟩ := ih h
      have hskip : Selects globalColumns (globalId :: ids) name ↔
          Selects globalColumns ids name := by
        simp [Selects, hrow]
      rw [hnone, hskip, hlen]
      exact ⟨Iff.rfl, hsome⟩
    · split at h
      · cases h
      · rename_i column hcolumn
        obtain ⟨hnone, hsome⟩ := ih h
        rw [NormMap.find?_insertNew] at hnone hsome
        have hcons : Selects globalColumns (globalId :: ids) name ↔
            ciEquals column.name name ∨ Selects globalColumns ids name := by
          simp [Selects, hrow, hcolumn]
        rw [hcons, hlen]
        by_cases hname : ciEquals column.name name
        · rw [if_pos (show lower column.name = lower name from hname)] at hnone hsome
          refine ⟨?_, fun j hj => ?_⟩
          · rw [hnone]
            simp [hname]
          · rcases hsome j hj with hj | hj
            · rcases Option.or_eq_some_iff.1 hj with hj | ⟨-, hj⟩
              · exact Or.inl hj
              · obtain rfl := Option.some.inj hj
                exact Or.inr (by omega)
            · exact Or.inr hj
        · rw [if_neg (show ¬ lower column.name = lower name from hname),
            Option.or_none] at hnone hsome
          refine ⟨?_, hsome⟩
          rw [hnone]
          simp [hname]

/-- The loop goes through when the projection is of columns of the table. -/
theorem exists_selectColumns (i : ℕ) (selectedColumns : CIMap ℕ)
    (h : ∀ globalId ∈ globalColumnIds, isRowIdColumn globalId ∨ globalId < globalColumns.length) :
    ∃ selectedColumns', selectColumns globalColumns globalColumnIds i selectedColumns =
      .ok selectedColumns' := by
  induction globalColumnIds generalizing i selectedColumns with
  | nil => exact ⟨_, rfl⟩
  | cons globalId ids ih =>
    obtain ⟨hid, hids⟩ := List.forall_mem_cons.1 h
    rw [selectColumns]
    by_cases hrow : isRowIdColumn globalId
    · rw [if_pos hrow]
      exact ih _ _ hids
    · rw [if_neg hrow, List.getElem?_eq_getElem (hid.resolve_left hrow)]
      exact ih _ _ hids

/-- The index is that of a projected column that is called `file_row_number`, or that of a column that
is added to the projection. -/
theorem initializeGlobalState_cases
    (h : ∀ globalId ∈ globalColumnIds, isRowIdColumn globalId ∨ globalId < globalColumns.length) :
    (¬ Selects globalColumns globalColumnIds "file_row_number" ∧
        initializeGlobalState globalColumns globalColumnIds =
          .ok ⟨[.simple .bigint], some globalColumnIds.length⟩) ∨
      (Selects globalColumns globalColumnIds "file_row_number" ∧ ∃ i < globalColumnIds.length,
        initializeGlobalState globalColumns globalColumnIds = .ok ⟨[], some i⟩) := by
  obtain ⟨selectedColumns, hselected⟩ := exists_selectColumns 0 NormMap.empty h
  obtain ⟨hnone, hsome⟩ := selectColumns_spec hselected "file_row_number"
  rw [initializeGlobalState, hselected]
  cases hfind : NormMap.find? selectedColumns "file_row_number" with
  | none =>
    refine Or.inl ⟨(hnone.1 hfind).2, ?_⟩
    simp only [bind, Except.bind, columnsToMap, mapColumns, hfind]
    rfl
  | some i =>
    refine Or.inr ⟨?_, i, ?_, ?_⟩
    · by_contra hnot
      rw [hnone.2 ⟨rfl, hnot⟩] at hfind
      cases hfind
    · rcases hsome i hfind with hi | hi
      · cases hi
      · omega
    · simp only [bind, Except.bind, columnsToMap, mapColumns, hfind]
      rfl

end GlobalState

/-! ### The column of the file -/

/-- A name stands for the last column of the file that has it. -/
theorem nameMap_spec (localColumns : List MultiFileReaderColumnDefinition) (name : String) :
    (NormMap.find? (nameMap localColumns) name = none ∧
        ∀ column ∈ localColumns, ¬ ciEquals column.name name) ∨
      ∃ i column, NormMap.find? (nameMap localColumns) name = some i ∧
        localColumns[i]? = some column ∧ ciEquals column.name name ∧
          ∀ j column', i < j → localColumns[j]? = some column' → ¬ ciEquals column'.name name := by
  have hget : ∀ i : ℕ, (localColumns.zipIdx.map fun c => (c.1.name, c.2))[i]? =
      localColumns[i]?.map fun c : MultiFileReaderColumnDefinition => (c.name, i) := by
    intro i
    rw [List.getElem?_map, List.getElem?_zipIdx, Option.map_map, Nat.zero_add]
    rfl
  rcases NormMap.find?_insertAll_cases (NormMap.empty : CIMap ℕ)
    (localColumns.zipIdx.map fun c => (c.1.name, c.2)) name with ⟨hnone, hfind⟩ | hlast
  · refine Or.inl ⟨hfind, fun column hcolumn => ?_⟩
    obtain ⟨i, hi⟩ := List.mem_iff_getElem?.1 hcolumn
    have hmem := hget i
    rw [hi] at hmem
    exact hnone _ (List.mem_of_getElem? hmem)
  · obtain ⟨pre, e, post, hsplit, he, hpost, hfind⟩ := hlast
    have hat := hget pre.length
    rw [hsplit, List.getElem?_append_right le_rfl, Nat.sub_self, List.getElem?_cons_zero] at hat
    obtain ⟨column, hcolumn, hcol⟩ := Option.map_eq_some_iff.1 hat.symm
    subst hcol
    refine Or.inr ⟨pre.length, column, hfind, hcolumn, he, fun j column' hj hcolumn' => ?_⟩
    have hafter := hget j
    rw [hcolumn', hsplit, List.getElem?_append_right hj.le,
      show j - pre.length = j - pre.length - 1 + 1 by omega, List.getElem?_cons_succ] at hafter
    exact hpost _ (List.mem_of_getElem? hafter)

variable {ν : Type} {bigint : ℤ → ν}

/-- A column of the file that comes after the generated one has its name. -/
def Hides (file : LocalFile ν bigint) : Prop :=
  ∃ j column, file.generated < j ∧ file.localColumns[j]? = some column ∧
    ciEquals column.name "file_row_number"

theorem localColumns_generated (file : LocalFile ν bigint) :
    file.localColumns[file.generated]? = some ⟨"file_row_number", .simple .bigint, none⟩ := by
  rw [LocalFile.localColumns, List.getElem?_map, file.generated_eq]
  rfl

/-- The name stands for the generated column unless it is hidden. -/
theorem nameMap_generated (file : LocalFile ν bigint) :
    ∃ i, NormMap.find? (nameMap file.localColumns) "file_row_number" = some i ∧
      (i = file.generated ↔ ¬ Hides file) := by
  have hgenerated := localColumns_generated file
  rcases nameMap_spec file.localColumns "file_row_number" with ⟨-, hnone⟩ | hlast
  · exact absurd rfl (hnone _ (List.mem_of_getElem? hgenerated))
  · obtain ⟨i, column, hfind, hcolumn, hname, hafter⟩ := hlast
    refine ⟨i, hfind, ?_⟩
    constructor
    · rintro rfl ⟨j, column', hj, hcolumn', hname'⟩
      exact hafter j column' hj hcolumn' hname'
    · intro hhides
      rcases lt_trichotomy i file.generated with hlt | heq | hgt
      · exact absurd rfl (hafter _ _ hlt hgenerated)
      · exact heq
      · exact absurd ⟨i, column, hgt, hcolumn, hname⟩ hhides

/-! ### The vectors -/

theorem lookup_eq_none {α β : Type} [DecidableEq α] {l : List (α × β)} {i : α}
    (h : ∀ e ∈ l, e.1 ≠ i) : l.lookup i = none := by
  rw [List.lookup_eq_none_iff]
  intro e he
  simpa using (h e he).symm

theorem source_eq (readerData : MultiFileReaderData ν) (i : ℕ) :
    source readerData i =
      ((readerData.constantMap.map fun c => (c.1, Source.constant c.2)).reverse.lookup i).or
        ((readerData.columnMapping.zip (readerData.columnIds.map .column)).reverse.lookup i) := by
  rw [source, written, List.reverse_append, List.lookup_append]

variable [Inhabited ν] {file : LocalFile ν bigint} {int64 : ν → ℤ}
  {byFieldId : List MultiFileReaderColumnDefinition → List MultiFileReaderColumnDefinition →
    List ℕ → MultiFileReaderData ν → Except Error (MultiFileReaderData ν)}
  {globalColumns : List MultiFileReaderColumnDefinition} {globalColumnIds : List ℕ}
  {tableValue : MultiFileReaderColumnDefinition → ℕ → ν}
  {readerData base : MultiFileReaderData ν}

/-- A column that is added is read into its vector, and the other vectors stay. -/
theorem source_add (h : FillsProjection file globalColumns globalColumnIds tableValue base)
    {entry idx : ℕ} (hidx : globalColumnIds.length ≤ idx) (readerData : MultiFileReaderData ν)
    (hids : readerData.columnIds = base.columnIds ++ [entry])
    (hmapping : readerData.columnMapping = base.columnMapping ++ [idx])
    (hconstants : readerData.constantMap = base.constantMap) :
    source readerData idx = some (.column entry) ∧
      ∀ i < globalColumnIds.length, source readerData i = source base i := by
  have hzip : (readerData.columnMapping.zip (readerData.columnIds.map (.column : ℕ → Source ν))) =
      base.columnMapping.zip (base.columnIds.map .column) ++ [(idx, .column entry)] := by
    rw [hids, hmapping, List.map_append, List.zip_append (by rw [List.length_map, h.lengths])]
    rfl
  constructor
  · have hnone : (base.constantMap.map fun c => (c.1, Source.constant c.2)).reverse.lookup idx =
        none := by
      refine lookup_eq_none fun e he => ?_
      obtain ⟨c, hc, rfl⟩ := List.mem_map.1 (List.mem_reverse.1 he)
      have hlt := h.constants c hc
      dsimp only
      omega
    rw [source_eq, hconstants, hnone, hzip, List.reverse_append]
    simp
  · intro i hi
    rw [source_eq, source_eq, hconstants, hzip, List.reverse_append, List.reverse_singleton,
      List.singleton_append, List.lookup_cons]
    have hne : (i == idx) = false := by
      rw [beq_eq_false_iff_ne]
      omega
    rw [hne]

/-- The vector that is added holds the positions. -/
theorem positions_of_source (hint64 : ∀ n, int64 (bigint n) = n)
    {globalState : IcebergMultiFileReaderGlobalState} {idx : ℕ}
    (hidx : globalState.fileRowNumberIdx = some idx)
    (hsource : source readerData idx = some (.column file.generated)) {positions : List ℕ}
    {chunk : VectorChunk ν} (hfilled : FilledFrom file readerData positions chunk) :
    ∃ v, rowNumberColumn globalState chunk = some v ∧
      ∀ k (hk : k < positions.length), int64 (v.value k) = positions[k] := by
  obtain ⟨v, hv, hvalues⟩ := hfilled.values idx _ hsource
  refine ⟨v, by rw [rowNumberColumn, hidx]; exact hv, fun k hk => ?_⟩
  rw [hvalues k hk, Source.value, file.generated_eq]
  exact hint64 _

/-- **The row numbers are physical** exactly when no projected column is called `file_row_number`, and
no column that comes after the generated one in the file. -/
theorem physicalRowNumbers_iff {schema : List IcebergColumnDefinition}
    (hint64 : ∀ n, int64 (bigint n) = n)
    (hids : ∀ globalId ∈ globalColumnIds, isRowIdColumn globalId ∨ globalId < schema.length)
    (hbase : byFieldId file.localColumns (bindColumns schema) globalColumnIds readerData = .ok base)
    (hfills : FillsProjection file (bindColumns schema) globalColumnIds tableValue base) :
    PhysicalRowNumbers int64 byFieldId file (bindColumns schema) globalColumnIds tableValue
        readerData ↔
      ¬ Selects (bindColumns schema) globalColumnIds "file_row_number" ∧ ¬ Hides file := by
  have hids' : ∀ globalId ∈ globalColumnIds, isRowIdColumn globalId ∨
      globalId < (bindColumns schema).length := by
    rwa [bindColumns, List.length_map]
  rcases initializeGlobalState_cases hids' with ⟨hselects, hinit⟩ | ⟨hselects, i, hi, hinit⟩
  · -- the column is added, and the name is looked up in the file
    obtain ⟨entry, hentry, hgenerated⟩ := nameMap_generated file
    have hmapping : createColumnMapping byFieldId file.localColumns (bindColumns schema)
        globalColumnIds ⟨[.simple .bigint], some globalColumnIds.length⟩ readerData =
          .ok { base with
            columnIds := base.columnIds ++ [entry]
            columnIndexes := base.columnIndexes ++ [{ index := entry }]
            columnMapping := base.columnMapping ++ [globalColumnIds.length]
            emptyColumns := (base.columnIds ++ [entry]).isEmpty } := by
      rw [createColumnMapping, hbase]
      simp only [bind, Except.bind, le_refl, if_true, hentry]
      rfl
    obtain ⟨hadded, hkept⟩ := source_add hfills le_rfl { base with
      columnIds := base.columnIds ++ [entry]
      columnIndexes := base.columnIndexes ++ [{ index := entry }]
      columnMapping := base.columnMapping ++ [globalColumnIds.length]
      emptyColumns := (base.columnIds ++ [entry]).isEmpty } rfl rfl rfl
    constructor
    · rintro ⟨globalState, readerData', hinit', hmapping', hphysical⟩
      obtain rfl := Except.ok.inj (hinit.symm.trans hinit')
      obtain rfl := Except.ok.inj (hmapping.symm.trans hmapping')
      obtain ⟨idx, hidx, -, -, hsource⟩ := hphysical.generated
      obtain rfl := Option.some.inj hidx
      rw [hadded] at hsource
      exact ⟨hselects, hgenerated.1 (Source.column.inj (Option.some.inj hsource))⟩
    · rintro ⟨-, hhides⟩
      obtain rfl := hgenerated.2 hhides
      refine ⟨_, _, hinit, hmapping, ⟨⟨_, rfl, le_rfl, ?_, hadded⟩, ?_, ?_⟩⟩
      · rw [Nat.sub_self]
        rfl
      · intro positions chunk hfilled
        exact positions_of_source hint64 rfl hadded hfilled
      · intro i globalId column hi hrow hcolumn
        obtain ⟨s, hs, hvalue⟩ := hfills.projected i globalId column hi hrow hcolumn
        have hlt : i < globalColumnIds.length := (List.getElem?_eq_some_iff.1 hi).1
        exact ⟨s, (hkept i hlt).trans hs, hvalue⟩
  · -- the vector is that of a projected column
    refine iff_of_false ?_ fun h => h.1 hselects
    rintro ⟨globalState, readerData', hinit', -, hphysical⟩
    obtain rfl := Except.ok.inj (hinit.symm.trans hinit')
    obtain ⟨idx, hidx, hle, -⟩ := hphysical.generated
    obtain rfl := Option.some.inj hidx
    omega

/-! ### Two tables -/

/-- The mapping of DuckDB by field id, for columns whose default is zero. -/
def fieldIdMapping (localColumns globalColumns : List MultiFileReaderColumnDefinition)
    (globalColumnIds : List ℕ) (readerData : MultiFileReaderData ℤ) :
    Except Error (MultiFileReaderData ℤ) :=
  .ok <| globalColumnIds.zipIdx.foldl (fun readerData (globalId, i) =>
    match globalColumns[globalId]? with
    | none => readerData
    | some column =>
      match localColumns.findIdx? (·.identifier = column.identifier) with
      | none => { readerData with constantMap := readerData.constantMap ++ [(i, 0)] }
      | some localId => { readerData with
          columnIds := readerData.columnIds ++ [localId]
          columnIndexes := readerData.columnIndexes ++ [{ index := localId }]
          columnMapping := readerData.columnMapping ++ [i] }) readerData

/-- A column of a table with numbers. -/
def numbers (id : ℤ) (name : String) : IcebergColumnDefinition :=
  ⟨id, name, .simple .bigint, .simple .bigint, true⟩

/-- A file with one column that was called `old`, all of whose values are 7. -/
def oldFile : LocalFile ℤ id where
  columns := [⟨⟨"old", .simple .bigint, some 1⟩, fun _ => 7⟩,
    ⟨⟨"file_row_number", .simple .bigint, none⟩, fun pos => pos⟩]
  generated := 1
  generated_eq := rfl

/-- The column twice and a row id, from a table where it is now called `new`. -/
theorem physicalRowNumbers_renamed :
    PhysicalRowNumbers id fieldIdMapping oldFile (bindColumns [numbers 1 "new"])
      [0, invalidIndex, 0] (fun _ _ => 7) {} := by
  have hbase : fieldIdMapping oldFile.localColumns (bindColumns [numbers 1 "new"])
      [0, invalidIndex, 0] {} = .ok
        { columnIds := [0, 0]
          columnIndexes := [{ index := 0 }, { index := 0 }]
          columnMapping := [0, 2] } := rfl
  refine (physicalRowNumbers_iff (fun _ => rfl) (by decide) hbase ⟨rfl, by decide, nofun, ?_⟩).2
    ⟨?_, ?_⟩
  · intro i globalId column hi hrow hcolumn
    match i with
    | 0 => exact ⟨.column 0, rfl, rfl⟩
    | 1 =>
      obtain rfl := Option.some.inj hi
      exact absurd rfl hrow
    | 2 => exact ⟨.column 0, rfl, rfl⟩
    | i + 3 => cases hi
  · rintro ⟨globalId, -, hrow, column, hcolumn, hname⟩
    obtain rfl := List.mem_singleton.1 (List.mem_of_getElem? hcolumn)
    exact absurd hname (by decide)
  · rintro ⟨j, column, hj, hcolumn, -⟩
    have hlt : j < 2 := (List.getElem?_eq_some_iff.1 hcolumn).1
    have hone : 1 < j := hj
    omega

/-- When it is now called `file_row_number`, its values are taken for the row numbers. -/
theorem not_physicalRowNumbers_named :
    initializeGlobalState (bindColumns [numbers 1 "file_row_number"]) [0] = .ok ⟨[], some 0⟩ ∧
      (∃ readerData, createColumnMapping fieldIdMapping oldFile.localColumns
        (bindColumns [numbers 1 "file_row_number"]) [0] ⟨[], some 0⟩ {} = .ok readerData ∧
          source readerData 0 = some (.column 0)) ∧
      ¬ PhysicalRowNumbers id fieldIdMapping oldFile (bindColumns [numbers 1 "file_row_number"]) [0]
        (fun _ _ => 7) {} := by
  have hinit : initializeGlobalState (bindColumns [numbers 1 "file_row_number"]) [0] =
      .ok ⟨[], some 0⟩ := rfl
  refine ⟨hinit, ⟨_, rfl, rfl⟩, ?_⟩
  rintro ⟨globalState, readerData, hinit', -, hphysical⟩
  obtain rfl := Except.ok.inj (hinit.symm.trans hinit')
  obtain ⟨i, hi, hle, -⟩ := hphysical.generated
  obtain rfl := Option.some.inj hi
  exact absurd hle (by decide)

end IcebergMultiFileReader

end DuckIceberg
