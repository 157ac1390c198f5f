import DuckIceberg.EntryLayout

/-!
# The order of the columns of a manifest

The producers find their columns by name, so what they decode stays the same when columns or children
of `data_file` are moved, others are added or letters change their case (`entries_rearranged`).
-/

namespace DuckIceberg

open Strings

/-! ### Manifests with their content -/

/-- A child of `data_file`, with its values. -/
structure EntryChild where
  name : String
  type : LogicalType
  vector : Vector

/-- A column of a manifest, with its values: `data_file` or another one. -/
inductive EntryColumn
  | plain (name : String) (type : LogicalType) (vector : Vector)
  | dataFile (name : String) (children : List EntryChild)

namespace EntryColumn

/-- The column in a layout. -/
def layout : EntryColumn → String × LogicalType
  | plain name type _ => (name, type)
  | dataFile name children => (name, .struct (children.map fun child => (child.name, child.type)))

/-- The column in a chunk. -/
def vector : EntryColumn → Vector
  | plain _ _ v => v
  | dataFile _ children => .struct (children.map EntryChild.vector)

/-- Its name, and the names of its children. -/
def names : EntryColumn → List String
  | plain name _ _ => [name]
  | dataFile name children => name :: children.map EntryChild.name

/-- The names under which its fields are entered into the map. -/
def fieldNames : EntryColumn → List String
  | plain name _ _ => [name]
  | dataFile _ children => children.map EntryChild.name

/-- It is a `data_file` exactly when it is called so. -/
def Named : EntryColumn → Prop
  | plain name _ _ => lower name ≠ "data_file"
  | dataFile name _ => lower name = "data_file"

end EntryColumn

/-- The rows of a manifest. -/
structure ManifestRows where
  columns : List EntryColumn
  size : ℕ
  size_le : size ≤ standardVectorSize

namespace ManifestRows

variable (M : ManifestRows)

def layout : List (String × LogicalType) := M.columns.map EntryColumn.layout

/-- The chunk with these rows. -/
def chunk : DataChunk :=
  ⟨M.layout.map Prod.snd, M.columns.map EntryColumn.vector, M.size, M.size_le⟩

/-- The map that `Initialize` makes. -/
def nameMap : NameMap := (ManifestReader.populate entryNameMapping M.layout.zipIdx .empty).2

/-- The entries of a slice, in version 1. -/
def entriesV1 (offset count : ℕ) (skipDeleted : Bool) (result : List IcebergManifestEntry) :
    Except Error (List IcebergManifestEntry × ℕ) :=
  IcebergManifestEntryV1.produceEntries M.chunk offset count ⟨M.nameMap, skipDeleted⟩ result

/-- The entries of a slice, in version 2. -/
def entriesV2 (offset count : ℕ) (skipDeleted : Bool) (result : List IcebergManifestEntry) :
    Except Error (List IcebergManifestEntry × ℕ) :=
  IcebergManifestEntryV2.produceEntries M.chunk offset count ⟨M.nameMap, skipDeleted⟩ result

/-- All names of columns and of children of `data_file`. -/
def names : List String := M.columns.flatMap EntryColumn.names

/-- The names differ, and `data_file` is the column that is called so. -/
structure Arranged : Prop where
  distinct : (M.names.map lower).Nodup
  named : ∀ column ∈ M.columns, column.Named

/-- The column `status` and the children with the required names are where they belong. -/
structure WellFormed (required : List String) : Prop extends M.Arranged where
  status : ∃ name type v, .plain name type v ∈ M.columns ∧ ciEquals name "status"
  dataFile : ∃ name children, .dataFile name children ∈ M.columns ∧
    ∀ field ∈ required, ∃ child ∈ children, ciEquals child.name field

end ManifestRows

/-- A manifest with the same content, whose columns are arranged in another way. -/
inductive Rearranges : ManifestRows → ManifestRows → Prop
  | moveColumns {M : ManifestRows} {columns : List EntryColumn} (h : columns.Perm M.columns) :
      Rearranges M ⟨columns, M.size, M.size_le⟩
  | moveChildren {M : ManifestRows} {pre post : List EntryColumn} {name : String}
      {children children' : List EntryChild}
      (h : M.columns = pre ++ .dataFile name children :: post) (hperm : children'.Perm children) :
      Rearranges M ⟨pre ++ .dataFile name children' :: post, M.size, M.size_le⟩
  | addColumn {M : ManifestRows} {name : String} {type : LogicalType} {v : Vector}
      (hfresh : ∀ other ∈ M.names, ¬ ciEquals name other) :
      Rearranges M ⟨.plain name type v :: M.columns, M.size, M.size_le⟩
  | addChild {M : ManifestRows} {pre post : List EntryColumn} {name : String}
      {children : List EntryChild} {child : EntryChild}
      (h : M.columns = pre ++ .dataFile name children :: post)
      (hfresh : ∀ other ∈ M.names, ¬ ciEquals child.name other) :
      Rearranges M ⟨pre ++ .dataFile name (child :: children) :: post, M.size, M.size_le⟩
  | renameColumn {M : ManifestRows} {pre post : List EntryColumn} {name name' : String}
      {type : LogicalType} {v : Vector} (h : M.columns = pre ++ .plain name type v :: post)
      (hcase : ciEquals name' name) :
      Rearranges M ⟨pre ++ .plain name' type v :: post, M.size, M.size_le⟩
  | renameDataFile {M : ManifestRows} {pre post : List EntryColumn} {name name' : String}
      {children : List EntryChild} (h : M.columns = pre ++ .dataFile name children :: post)
      (hcase : ciEquals name' name) :
      Rearranges M ⟨pre ++ .dataFile name' children :: post, M.size, M.size_le⟩
  | renameChild {M : ManifestRows} {pre post : List EntryColumn} {name name' : String}
      {before after : List EntryChild} {child : EntryChild}
      (h : M.columns = pre ++ .dataFile name (before ++ child :: after) :: post)
      (hcase : ciEquals name' child.name) :
      Rearranges M
        ⟨pre ++ .dataFile name (before ++ { child with name := name' } :: after) :: post, M.size,
          M.size_le⟩

namespace ManifestRows

/-! ### The fields that are found -/

/-- The values that the producers read: those of `status` and of the required children. -/
structure Holds (M : ManifestRows) (required : List String) (status : Vector)
    (value : String → Vector) : Prop where
  status : ∃ name type, .plain name type status ∈ M.columns ∧ ciEquals name "status"
  dataFile : ∃ name children, .dataFile name children ∈ M.columns ∧
    ∀ field ∈ required, ∃ child ∈ children, ciEquals child.name field ∧ child.vector = value field

variable {M M' : ManifestRows} {required : List String} {status : Vector} {value : String → Vector}

theorem Holds.wellFormed (h : M.Holds required status value) (harranged : M.Arranged) :
    M.WellFormed required where
  toArranged := harranged
  status := by
    obtain ⟨name, type, hmem, hname⟩ := h.status
    exact ⟨name, type, status, hmem, hname⟩
  dataFile := by
    obtain ⟨name, children, hmem, hchildren⟩ := h.dataFile
    refine ⟨name, children, hmem, fun field hfield => ?_⟩
    obtain ⟨child, hchild, hname, -⟩ := hchildren field hfield
    exact ⟨child, hchild, hname⟩

theorem WellFormed.exists_holds (h : M.WellFormed required) :
    ∃ status value, M.Holds required status value := by
  obtain ⟨name, type, v, hmem, hname⟩ := h.status
  obtain ⟨dname, children, hdata, hchildren⟩ := h.dataFile
  refine ⟨v, fun field => ((children.find? fun child => ciEquals child.name field).map
    EntryChild.vector).getD .other, ⟨name, type, hmem, hname⟩, dname, children, hdata,
    fun field hfield => ?_⟩
  obtain ⟨child, hchild, hci⟩ := hchildren field hfield
  cases hfind : children.find? fun child => ciEquals child.name field with
  | none => exact absurd hci (by simpa using List.find?_eq_none.1 hfind child hchild)
  | some found =>
    refine ⟨found, List.mem_of_find?_eq_some hfind, ?_, rfl⟩
    simpa using List.find?_some hfind

/-- Each name is that of one field. -/
theorem fieldOf_of_mem {fields : List (String × ColumnIndex)}
    (hdistinct : (fields.map fun field => lower field.1).Nodup) {field : String × ColumnIndex}
    (hfield : field ∈ fields) (name : String) (hname : ciEquals field.1 name) :
    fieldOf fields name = some field.2 := by
  cases hfind : fieldOf fields name with
  | none => exact absurd hname (fieldOf_eq_none_iff.1 hfind field hfield)
  | some i =>
    obtain ⟨field', hfield', hname', rfl⟩ := mem_of_fieldOf hfind
    rw [List.inj_on_of_nodup_map hdistinct hfield hfield' (hname.trans hname'.symm)]

/-- The names of the fields of a column. -/
theorem names_columnFields {column : EntryColumn} (h : column.Named) (i : ℕ) :
    (columnFields (column.layout, i)).map (fun field => lower field.1) =
      column.fieldNames.map lower := by
  cases column with
  | plain name type v =>
    have hname : lower name ≠ "data_file" := h
    simp [columnFields, EntryColumn.layout, EntryColumn.fieldNames, hname]
  | dataFile name children =>
    have hname : lower name = "data_file" := h
    simp only [columnFields, EntryColumn.layout, EntryColumn.fieldNames, hname, ne_eq,
      not_true_eq_false, if_false, List.map_map]
    refine List.ext_getElem (by simp) fun j h1 h2 => ?_
    simp

theorem names_entryFields {columns : List EntryColumn} (h : ∀ column ∈ columns, column.Named)
    (k : ℕ) :
    (((columns.map EntryColumn.layout).zipIdx k).flatMap columnFields).map
        (fun field => lower field.1) = (columns.flatMap EntryColumn.fieldNames).map lower := by
  induction columns generalizing k with
  | nil => rfl
  | cons column columns ih =>
    obtain ⟨hcolumn, hcolumns⟩ := List.forall_mem_cons.1 h
    rw [List.map_cons, List.zipIdx_cons, List.flatMap_cons, List.flatMap_cons, List.map_append,
      List.map_append, names_columnFields hcolumn, ih hcolumns]

/-- The names of the fields of a manifest differ. -/
theorem Arranged.distinct_fields (h : M.Arranged) :
    ((entryFields M.layout).map fun field => lower field.1).Nodup := by
  have hnames := names_entryFields h.named 0
  rw [entryFields, layout, hnames]
  refine List.Nodup.sublist (List.Sublist.map lower ?_) h.distinct
  rw [names]
  refine List.Sublist.flatMap_right _ fun column _ => ?_
  cases column with
  | plain name type v => exact List.Sublist.refl _
  | dataFile name children => exact List.sublist_cons_self _ _

theorem Arranged.structDataFiles (h : M.Arranged) : StructDataFiles M.layout := by
  intro column hcolumn hname
  obtain ⟨c, hc, rfl⟩ := List.mem_map.1 hcolumn
  have hnamed := h.named c hc
  cases c with
  | plain name type v => exact absurd hname hnamed
  | dataFile name children => exact ⟨_, rfl⟩

theorem Arranged.nameMap_eq (h : M.Arranged) : M.nameMap = entryMap M.layout := by
  rw [nameMap, populate_entryMap h.structDataFiles]

/-- The column of a field is where the map says. -/
theorem Arranged.find_column (h : M.Arranged) {name : String} {type : LogicalType} {v : Vector}
    (hmem : .plain name type v ∈ M.columns) {field : String} (hname : ciEquals name field) :
    ∃ i, M.nameMap.atName field = .ok i ∧ column M.chunk.data i.index = .ok v := by
  obtain ⟨i, hi⟩ := List.mem_iff_getElem?.1 hmem
  have hlayout : M.layout[i]? = some (name, type) := by
    rw [layout, List.getElem?_map, hi]
    rfl
  have hne : lower name ≠ "data_file" := h.named _ hmem
  have hfield : (lower name, ⟨i, []⟩) ∈ entryFields M.layout := by
    refine List.mem_flatMap.2 ⟨((name, type), i), List.mem_zipIdx_iff_getElem?.2 hlayout, ?_⟩
    simp [columnFields, hne]
  have hfind := fieldOf_of_mem h.distinct_fields hfield field
    (show lower (lower name) = lower field by rw [lower_lower]; exact hname)
  refine ⟨⟨i, []⟩, ?_, ?_⟩
  · rw [h.nameMap_eq]
    exact atName_fields_iff.2 hfind
  · rw [column, chunk, List.getElem?_map, hi]
    rfl

/-- So are the children of `data_file`. -/
theorem Arranged.find_child (h : M.Arranged) {name : String} {children : List EntryChild}
    (hmem : .dataFile name children ∈ M.columns) :
    ∃ i, column M.chunk.data i = .ok (.struct (children.map EntryChild.vector)) ∧
      ∀ child ∈ children, ∀ field, ciEquals child.name field →
        ∃ c, M.nameMap.atName field = .ok ⟨i, [c]⟩ ∧
          column (children.map EntryChild.vector) c = .ok child.vector := by
  obtain ⟨i, hi⟩ := List.mem_iff_getElem?.1 hmem
  have hlayout : M.layout[i]? = some
      (name, .struct (children.map fun child => (child.name, child.type))) := by
    rw [layout, List.getElem?_map, hi]
    rfl
  have hdata : lower name = "data_file" := h.named _ hmem
  refine ⟨i, ?_, fun child hchild field hname => ?_⟩
  · rw [column, chunk, List.getElem?_map, hi]
    rfl
  · obtain ⟨c, hc⟩ := List.mem_iff_getElem?.1 hchild
    have hfield : (lower child.name, ⟨i, [c]⟩) ∈ entryFields M.layout := by
      refine List.mem_flatMap.2
        ⟨((name, .struct (children.map fun child => (child.name, child.type))), i),
          List.mem_zipIdx_iff_getElem?.2 hlayout, ?_⟩
      simp only [columnFields, hdata, ne_eq, not_true_eq_false, if_false]
      refine List.mem_map.2 ⟨((child.name, child.type), c), List.mem_zipIdx_iff_getElem?.2 ?_, rfl⟩
      rw [List.getElem?_map, hc]
      rfl
    have hfind := fieldOf_of_mem h.distinct_fields hfield field
      (show lower (lower child.name) = lower field by rw [lower_lower]; exact hname)
    refine ⟨c, ?_, ?_⟩
    · rw [h.nameMap_eq]
      exact atName_fields_iff.2 hfind
    · rw [column, List.getElem?_map, hc]
      rfl

/-! ### What is decoded -/

/-- The entries of version 1 in rows with these values. -/
def decodeV1 (status filePath fileFormat recordCount : Vector) :
    Except Error (ℕ → IcebergManifestEntry) := do
  let status ← status.int32s
  let filePath ← filePath.varchars
  let fileFormat ← fileFormat.varchars
  let recordCount ← recordCount.int64s
  return fun index =>
    { status := .ofInt32 (status.getD index 0)
      content := .data
      filePath := filePath.getD index ""
      fileFormat := fileFormat.getD index ""
      recordCount := recordCount.getD index 0 }

/-- The entries of version 2 in rows with these values. -/
def decodeV2 (status content filePath fileFormat recordCount : Vector) :
    Except Error (ℕ → IcebergManifestEntry) := do
  let status ← status.int32s
  let content ← content.int32s
  let filePath ← filePath.varchars
  let fileFormat ← fileFormat.varchars
  let recordCount ← recordCount.int64s
  return fun index =>
    { status := .ofInt32 (status.getD index 0)
      content := .ofInt32 (content.getD index 0)
      filePath := filePath.getD index ""
      fileFormat := fileFormat.getD index ""
      recordCount := recordCount.getD index 0 }

/-- A required child is found in the struct of `data_file`. -/
theorem Holds.find (h : M.Holds required status value) (harranged : M.Arranged) :
    ∃ i es, column M.chunk.data i = .ok (.struct es) ∧ ∀ field ∈ required,
      ∃ c, M.nameMap.atName field = .ok ⟨i, [c]⟩ ∧ column es c = .ok (value field) := by
  obtain ⟨name, children, hmem, hchildren⟩ := h.dataFile
  obtain ⟨i, hi, hfind⟩ := harranged.find_child hmem
  refine ⟨i, _, hi, fun field hfield => ?_⟩
  obtain ⟨child, hchild, hname, hvalue⟩ := hchildren field hfield
  obtain ⟨c, hc, hv⟩ := hfind child hchild field hname
  exact ⟨c, hc, by rw [hv, hvalue]⟩

/-- **What version 1 decodes** depends on the values under the required names only. -/
theorem rowV1_eq (h : M.Holds childNamesV1 status value) (harranged : M.Arranged) :
    IcebergManifestEntryV1.row M.nameMap M.chunk =
      decodeV1 status (value "file_path") (value "file_format") (value "record_count") := by
  obtain ⟨name, type, hmem, hname⟩ := h.status
  obtain ⟨s, hs, hsv⟩ := harranged.find_column hmem hname
  obtain ⟨i, es, hes, hfind⟩ := h.find harranged
  obtain ⟨p, hp, hpv⟩ := hfind "file_path" (by decide)
  obtain ⟨f, hf, hfv⟩ := hfind "file_format" (by decide)
  obtain ⟨r, hr, hrv⟩ := hfind "record_count" (by decide)
  simp only [IcebergManifestEntryV1.row, hs, hp, hf, hr, hsv, hes, bind, Except.bind,
    ColumnIndex.child, Vector.entries, hpv, hfv, hrv]
  rfl

/-- **What version 2 decodes** depends on the values under the required names only. -/
theorem rowV2_eq (h : M.Holds childNamesV2 status value) (harranged : M.Arranged) :
    IcebergManifestEntryV2.row M.nameMap M.chunk =
      decodeV2 status (value "content") (value "file_path") (value "file_format")
        (value "record_count") := by
  obtain ⟨name, type, hmem, hname⟩ := h.status
  obtain ⟨s, hs, hsv⟩ := harranged.find_column hmem hname
  obtain ⟨i, es, hes, hfind⟩ := h.find harranged
  obtain ⟨c, hc, hcv⟩ := hfind "content" (by decide)
  obtain ⟨p, hp, hpv⟩ := hfind "file_path" (by decide)
  obtain ⟨f, hf, hfv⟩ := hfind "file_format" (by decide)
  obtain ⟨r, hr, hrv⟩ := hfind "record_count" (by decide)
  simp only [IcebergManifestEntryV2.row, hs, hc, hp, hf, hr, hsv, hes, bind, Except.bind,
    ColumnIndex.child, Vector.entries, hcv, hpv, hfv, hrv]
  rfl

/-! ### Arranging columns in another way -/

/-- A column at a place where another one stands now. -/
theorem mem_middle {α : Type} {x a : α} {pre post : List α} (h : x ∈ pre ++ a :: post) (b : α) :
    x = a ∨ x ∈ pre ++ b :: post := by
  simp only [List.mem_append, List.mem_cons] at h ⊢
  tauto

/-- The values stay when one column is replaced by one that has them. -/
theorem Holds.replace (h : M.Holds required status value) {pre post : List EntryColumn}
    {old new : EntryColumn} (hM : M.columns = pre ++ old :: post)
    (hM' : M'.columns = pre ++ new :: post)
    (hplain : ∀ name type, old = .plain name type status → ciEquals name "status" →
      ∃ name', new = .plain name' type status ∧ ciEquals name' "status")
    (hdata : ∀ name children, old = .dataFile name children →
      (∀ field ∈ required, ∃ child ∈ children,
        ciEquals child.name field ∧ child.vector = value field) →
      ∃ name' children', new = .dataFile name' children' ∧ ∀ field ∈ required,
        ∃ child ∈ children', ciEquals child.name field ∧ child.vector = value field) :
    M'.Holds required status value where
  status := by
    obtain ⟨name, type, hmem, hname⟩ := h.status
    rw [hM] at hmem
    rw [hM']
    rcases mem_middle hmem new with hold | hmem
    · obtain ⟨name', hnew, hname'⟩ := hplain name type hold.symm hname
      exact ⟨name', type, by simp [hnew], hname'⟩
    · exact ⟨name, type, hmem, hname⟩
  dataFile := by
    obtain ⟨name, children, hmem, hchildren⟩ := h.dataFile
    rw [hM] at hmem
    rw [hM']
    rcases mem_middle hmem new with hold | hmem
    · obtain ⟨name', children', hnew, hchildren'⟩ := hdata name children hold.symm hchildren
      exact ⟨name', children', by simp [hnew], hchildren'⟩
    · exact ⟨name, children, hmem, hchildren⟩

/-- Names that are the same up to their order differ as before. -/
theorem nodup_of_perm (h : M.Arranged) (hperm : (M'.names.map lower).Perm (M.names.map lower)) :
    (M'.names.map lower).Nodup := hperm.nodup_iff.2 h.distinct

/-- With a fresh name they still differ. -/
theorem nodup_of_fresh (h : M.Arranged) (name : String)
    (hperm : M'.names.Perm (name :: M.names)) (hfresh : ∀ other ∈ M.names, ¬ ciEquals name other) :
    (M'.names.map lower).Nodup := by
  rw [(hperm.map lower).nodup_iff, List.map_cons, List.nodup_cons]
  refine ⟨fun hmem => ?_, h.distinct⟩
  obtain ⟨other, hother, heq⟩ := List.mem_map.1 hmem
  exact hfresh other hother heq.symm

theorem names_middle {pre post : List EntryColumn} {c : EntryColumn}
    (h : M.columns = pre ++ c :: post) :
    M.names = pre.flatMap EntryColumn.names ++ (c.names ++ post.flatMap EntryColumn.names) := by
  rw [names, h, List.flatMap_append, List.flatMap_cons]

theorem named_replace (h : M.Arranged) {pre post : List EntryColumn} {old new : EntryColumn}
    (hM : M.columns = pre ++ old :: post) (hM' : M'.columns = pre ++ new :: post)
    (hnew : old.Named → new.Named) : ∀ column ∈ M'.columns, column.Named := by
  have hold : old.Named := h.named old (by simp [hM])
  intro column hcolumn
  rw [hM'] at hcolumn
  rcases mem_middle hcolumn old with rfl | hmem
  · exact hnew hold
  · exact h.named column (by rw [hM]; exact hmem)

/-- The column `data_file` has its name. -/
theorem Holds.exists_dataFile_name (h : M.Holds required status value) (harranged : M.Arranged) :
    ∃ name ∈ M.names, lower name = "data_file" := by
  obtain ⟨name, children, hmem, -⟩ := h.dataFile
  exact ⟨name, List.mem_flatMap.2 ⟨_, hmem, List.mem_cons_self⟩, harranged.named _ hmem⟩

/-- **A manifest that is arranged in another way** has the same values under the required names. -/
theorem Rearranges.holds (hstep : Rearranges M M') (harranged : M.Arranged)
    (h : M.Holds required status value) : M'.Arranged ∧ M'.Holds required status value := by
  cases hstep with
  | moveColumns hperm =>
    refine ⟨⟨nodup_of_perm harranged ((hperm.flatMap_right _).map lower), fun column hcolumn => ?_⟩,
      ?_, ?_⟩
    · exact harranged.named column (hperm.mem_iff.1 hcolumn)
    · obtain ⟨name, type, hmem, hname⟩ := h.status
      exact ⟨name, type, hperm.mem_iff.2 hmem, hname⟩
    · obtain ⟨name, children, hmem, hchildren⟩ := h.dataFile
      exact ⟨name, children, hperm.mem_iff.2 hmem, hchildren⟩
  | @moveChildren pre post name children children' hM hperm =>
    refine ⟨⟨nodup_of_perm harranged ?_, named_replace harranged hM rfl id⟩, h.replace hM rfl nofun ?_⟩
    · rw [names_middle hM, names_middle rfl]
      refine ((List.Perm.append_right _ ?_).append_left _).map lower
      exact (hperm.map EntryChild.name).cons name
    · rintro _ _ hold hchildren
      obtain ⟨rfl, rfl⟩ := EntryColumn.dataFile.inj hold
      refine ⟨name, children', rfl, fun field hfield => ?_⟩
      obtain ⟨child, hchild, hspec⟩ := hchildren field hfield
      exact ⟨child, hperm.mem_iff.2 hchild, hspec⟩
  | @addColumn name type v hfresh =>
    refine ⟨⟨nodup_of_fresh harranged _ (List.Perm.refl _) hfresh, fun column hcolumn => ?_⟩, ?_, ?_⟩
    · rcases List.mem_cons.1 hcolumn with rfl | hcolumn
      · obtain ⟨dname, hdname, hdata⟩ := h.exists_dataFile_name harranged
        exact fun hname => hfresh dname hdname (hname.trans hdata.symm)
      · exact harranged.named column hcolumn
    · obtain ⟨name', type', hmem, hname⟩ := h.status
      exact ⟨name', type', List.mem_cons_of_mem _ hmem, hname⟩
    · obtain ⟨name', children, hmem, hchildren⟩ := h.dataFile
      exact ⟨name', children, List.mem_cons_of_mem _ hmem, hchildren⟩
  | @addChild pre post name children child hM hfresh =>
    refine ⟨⟨nodup_of_fresh harranged child.name ?_ hfresh,
      named_replace harranged hM rfl id⟩, h.replace hM rfl nofun ?_⟩
    · rw [names_middle hM, names_middle rfl]
      refine ((List.Perm.swap child.name name _).append_left _).trans ?_
      exact List.perm_middle
    · rintro _ _ hold hchildren
      obtain ⟨rfl, rfl⟩ := EntryColumn.dataFile.inj hold
      refine ⟨name, child :: children, rfl, fun field hfield => ?_⟩
      obtain ⟨child', hchild, hspec⟩ := hchildren field hfield
      exact ⟨child', List.mem_cons_of_mem _ hchild, hspec⟩
  | @renameColumn pre post name name' type v hM hcase =>
    have hlower : lower name' = lower name := hcase
    refine ⟨⟨nodup_of_perm harranged ?_, named_replace harranged hM rfl ?_⟩, h.replace hM rfl ?_ nofun⟩
    · rw [names_middle hM, names_middle rfl]
      simp [EntryColumn.names, hlower]
    · intro hne
      exact fun hname => hne (hlower.symm.trans hname)
    · rintro _ _ hold hname
      obtain ⟨rfl, rfl, rfl⟩ := EntryColumn.plain.inj hold
      exact ⟨name', rfl, hcase.trans hname⟩
  | @renameDataFile pre post name name' children hM hcase =>
    have hlower : lower name' = lower name := hcase
    refine ⟨⟨nodup_of_perm harranged ?_, named_replace harranged hM rfl hlower.trans⟩,
      h.replace hM rfl nofun ?_⟩
    · rw [names_middle hM, names_middle rfl]
      simp [EntryColumn.names, hlower]
    · rintro _ _ hold hchildren
      obtain ⟨rfl, rfl⟩ := EntryColumn.dataFile.inj hold
      exact ⟨name', children, rfl, hchildren⟩
  | @renameChild pre post name name' before after child hM hcase =>
    have hlower : lower name' = lower child.name := hcase
    refine ⟨⟨nodup_of_perm harranged ?_, named_replace harranged hM rfl id⟩,
      h.replace hM rfl nofun ?_⟩
    · rw [names_middle hM, names_middle rfl]
      simp [EntryColumn.names, hlower]
    · rintro _ _ hold hchildren
      obtain ⟨rfl, rfl⟩ := EntryColumn.dataFile.inj hold
      refine ⟨name, _, rfl, fun field hfield => ?_⟩
      obtain ⟨child', hchild, hname, hvalue⟩ := hchildren field hfield
      rcases mem_middle hchild { child with name := name' } with rfl | hmem
      · exact ⟨{ child' with name := name' }, by simp, hcase.trans hname, hvalue⟩
      · exact ⟨child', hmem, hname, hvalue⟩

/-- So has one that is arranged in another way again and again. -/
theorem holds_of_rearranged (hsteps : Relation.ReflTransGen Rearranges M M')
    (harranged : M.Arranged) (h : M.Holds required status value) :
    M'.Arranged ∧ M'.Holds required status value := by
  induction hsteps with
  | refl => exact ⟨harranged, h⟩
  | tail _ hstep ih => exact Rearranges.holds hstep ih.1 ih.2

/-- The layout of a manifest in order is accepted. -/
theorem Holds.hasField (h : M.Holds required status value) (harranged : M.Arranged) {field : String}
    (hfield : field ∈ "status" :: required) : HasField (entryFields M.layout) field := by
  rcases List.mem_cons.1 hfield with rfl | hfield
  · obtain ⟨name, type, hmem, hname⟩ := h.status
    obtain ⟨i, hi, -⟩ := harranged.find_column hmem hname
    rw [harranged.nameMap_eq] at hi
    obtain ⟨f, hf, hci, -⟩ := mem_of_fieldOf (atName_fields_iff.1 hi)
    exact ⟨f, hf, hci⟩
  · obtain ⟨i, es, -, hfind⟩ := h.find harranged
    obtain ⟨c, hc, -⟩ := hfind field hfield
    rw [harranged.nameMap_eq] at hc
    obtain ⟨f, hf, hci, -⟩ := mem_of_fieldOf (atName_fields_iff.1 hc)
    exact ⟨f, hf, hci⟩

/-! ### The entries -/

/-- `Initialize` accepts the layout. -/
def Accepted (op : ManifestFormat IcebergManifestEntry) (M : ManifestRows) : Prop :=
  ManifestReader.populate op.populateNameMapping M.layout.zipIdx .empty = (.ok (), M.nameMap) ∧
    op.verifySchema M.nameMap = true

theorem Holds.acceptedV1 (h : M.Holds childNamesV1 status value) (harranged : M.Arranged) :
    Accepted icebergManifestEntryV1 M := by
  have hmap := harranged.nameMap_eq
  refine ⟨?_, ?_⟩
  · rw [hmap]
    exact populate_entryMap harranged.structDataFiles
  · rw [hmap]
    exact verifySchema_entryV1.2 fun field hfield => h.hasField harranged hfield

theorem Holds.acceptedV2 (h : M.Holds childNamesV2 status value) (harranged : M.Arranged) :
    Accepted icebergManifestEntryV2 M := by
  have hmap := harranged.nameMap_eq
  refine ⟨?_, ?_⟩
  · rw [hmap]
    exact populate_entryMap harranged.structDataFiles
  · rw [hmap]
    exact verifySchema_entryV2.2 fun field hfield => h.hasField harranged hfield

theorem entriesV1_eq (offset count : ℕ) (skipDeleted : Bool) (result : List IcebergManifestEntry) :
    M.entriesV1 offset count skipDeleted result =
      (IcebergManifestEntryV1.row M.nameMap M.chunk).map fun entry =>
        (result ++ (slice entry offset count).filter
            fun e => !(skipDeleted && e.status == .deleted),
          (slice entry offset count).countP fun e => !(skipDeleted && e.status == .deleted)) :=
  icebergManifestEntryV1.produceEntries_eq _ _ _ _ _

theorem entriesV2_eq (offset count : ℕ) (skipDeleted : Bool) (result : List IcebergManifestEntry) :
    M.entriesV2 offset count skipDeleted result =
      (IcebergManifestEntryV2.row M.nameMap M.chunk).map fun entry =>
        (result ++ (slice entry offset count).filter
            fun e => !(skipDeleted && e.status == .deleted),
          (slice entry offset count).countP fun e => !(skipDeleted && e.status == .deleted)) :=
  icebergManifestEntryV2.produceEntries_eq _ _ _ _ _

/-- In these rows the content is 0. -/
def ContentZero (M : ManifestRows) (offset count : ℕ) : Prop :=
  ∃ name children child data, .dataFile name children ∈ M.columns ∧ child ∈ children ∧
    ciEquals child.name "content" ∧ child.vector = .int32 data ∧
      ∀ i < count, data.getD (i + offset) 0 = 0

/-- The values of the content are those of the child that is called so. -/
theorem Holds.content_eq (h : M.Holds childNamesV2 status value) (harranged : M.Arranged)
    {offset count : ℕ} (hzero : M.ContentZero offset count) :
    ∃ data, value "content" = .int32 data ∧ ∀ i < count, data.getD (i + offset) 0 = 0 := by
  obtain ⟨name, children, child, data, hmem, hchild, hname, hdata, hzero⟩ := hzero
  obtain ⟨i, hi, hfind⟩ := harranged.find_child hmem
  obtain ⟨c, hc, hv⟩ := hfind child hchild "content" hname
  obtain ⟨i', es, hi', hfind'⟩ := h.find harranged
  obtain ⟨c', hc', hv'⟩ := hfind' "content" (by decide)
  obtain ⟨rfl, hcc⟩ := ColumnIndex.mk.inj (Except.ok.inj (hc.symm.trans hc'))
  obtain rfl := List.singleton_inj.1 hcc
  obtain rfl := Vector.struct.inj (Except.ok.inj (hi.symm.trans hi'))
  refine ⟨data, ?_, hzero⟩
  rw [← hdata]
  exact Except.ok.inj (hv'.symm.trans hv)

/-- Version 2 decodes what version 1 does, and the content. -/
theorem decodeV2_int32 (status : Vector) (data : List ℤ) (filePath fileFormat recordCount : Vector) :
    decodeV2 status (.int32 data) filePath fileFormat recordCount =
      (decodeV1 status filePath fileFormat recordCount).map fun entry index =>
        { entry index with content := .ofInt32 (data.getD index 0) } := by
  unfold decodeV1 decodeV2
  cases status.int32s with
  | error e => rfl
  | ok statuses =>
    cases filePath.varchars with
    | error e => rfl
    | ok paths =>
      cases fileFormat.varchars with
      | error e => rfl
      | ok formats =>
        cases recordCount.int64s with
        | error e => rfl
        | ok counts => rfl

theorem content_of_decodeV1 {filePath fileFormat recordCount : Vector}
    {entry : ℕ → IcebergManifestEntry}
    (h : decodeV1 status filePath fileFormat recordCount = .ok entry) (i : ℕ) :
    (entry i).content = .data := by
  obtain ⟨_, -, h⟩ := bind_eq_ok.1 h
  obtain ⟨_, -, h⟩ := bind_eq_ok.1 h
  obtain ⟨_, -, h⟩ := bind_eq_ok.1 h
  obtain ⟨_, -, h⟩ := bind_eq_ok.1 h
  cases h
  rfl

/-- Rows whose content is 0 are the same entries in both versions. -/
theorem WellFormed.entriesV2_eq_entriesV1 (h : M.WellFormed childNamesV2) {offset count : ℕ}
    (hzero : M.ContentZero offset count) (skipDeleted : Bool) (result : List IcebergManifestEntry) :
    M.entriesV2 offset count skipDeleted result = M.entriesV1 offset count skipDeleted result := by
  obtain ⟨status, value, hholds⟩ := h.exists_holds
  obtain ⟨data, hdata, hzero⟩ := hholds.content_eq h.toArranged hzero
  have hholds1 : M.Holds childNamesV1 status value := by
    refine ⟨hholds.status, ?_⟩
    obtain ⟨name, children, hmem, hchildren⟩ := hholds.dataFile
    exact ⟨name, children, hmem, fun field hfield =>
      hchildren field (List.mem_cons_of_mem _ hfield)⟩
  rw [entriesV1_eq, entriesV2_eq, rowV1_eq hholds1 h.toArranged, rowV2_eq hholds h.toArranged, hdata,
    decodeV2_int32]
  cases hrow : decodeV1 status (value "file_path") (value "file_format") (value "record_count") with
  | error e => rfl
  | ok entry =>
    have hslice : slice (fun index => { entry index with
        content := IcebergManifestEntryContentType.ofInt32 (data.getD index 0) }) offset count =
        slice entry offset count := by
      refine List.map_congr_left fun i hi => ?_
      have hcontent := content_of_decodeV1 hrow (i + offset)
      show { entry (i + offset) with
        content := IcebergManifestEntryContentType.ofInt32 (data.getD (i + offset) 0) } = _
      rw [hzero i (List.mem_range.1 hi)]
      show { entry (i + offset) with content := IcebergManifestEntryContentType.data } = _
      rw [← hcontent]
    simp only [Except.map, hslice]

/-- **The order of the columns does not matter**: a manifest that is arranged in another way, with
columns and children moved or added and letters in another case, is accepted as before, and the
producers of both versions append the same entries.  When the content of the rows is 0, they are the
same in both versions. -/
theorem entries_rearranged (hsteps : Relation.ReflTransGen Rearranges M M') :
    (M.WellFormed childNamesV1 → M'.WellFormed childNamesV1 ∧
      Accepted icebergManifestEntryV1 M' ∧ ∀ offset count skipDeleted result,
        M'.entriesV1 offset count skipDeleted result = M.entriesV1 offset count skipDeleted result) ∧
    (M.WellFormed childNamesV2 → M'.WellFormed childNamesV2 ∧
      Accepted icebergManifestEntryV2 M' ∧ ∀ offset count skipDeleted result,
        M'.entriesV2 offset count skipDeleted result = M.entriesV2 offset count skipDeleted result) ∧
    (M.WellFormed childNamesV2 → ∀ offset count skipDeleted result, M.ContentZero offset count →
      M.entriesV2 offset count skipDeleted result = M.entriesV1 offset count skipDeleted result) := by
  refine ⟨fun h => ?_, fun h => ?_, fun h offset count skipDeleted result hzero =>
    h.entriesV2_eq_entriesV1 hzero skipDeleted result⟩
  · obtain ⟨status, value, hholds⟩ := h.exists_holds
    obtain ⟨harranged', hholds'⟩ := holds_of_rearranged hsteps h.toArranged hholds
    refine ⟨hholds'.wellFormed harranged', hholds'.acceptedV1 harranged', fun _ _ _ _ => ?_⟩
    rw [entriesV1_eq, entriesV1_eq, rowV1_eq hholds' harranged', rowV1_eq hholds h.toArranged]
  · obtain ⟨status, value, hholds⟩ := h.exists_holds
    obtain ⟨harranged', hholds'⟩ := holds_of_rearranged hsteps h.toArranged hholds
    refine ⟨hholds'.wellFormed harranged', hholds'.acceptedV2 harranged', fun _ _ _ _ => ?_⟩
    rw [entriesV2_eq, entriesV2_eq, rowV2_eq hholds' harranged', rowV2_eq hholds h.toArranged]

/-! ### A manifest with one row -/

/-- The row of a data file, written with `data_file` first. -/
def oneRow : ManifestRows where
  columns := [.dataFile "data_file" [⟨"content", .simple .integer, .int32 [0]⟩,
      ⟨"file_path", .simple .varchar, .varchar ["data/1.parquet"]⟩,
      ⟨"file_format", .simple .varchar, .varchar ["PARQUET"]⟩,
      ⟨"record_count", .simple .bigint, .int64 [3]⟩],
    .plain "status" (.simple .integer) (.int32 [1])]
  size := 1
  size_le := by decide

theorem wellFormed_oneRow : oneRow.WellFormed childNamesV2 where
  distinct := by decide +kernel
  named := by
    intro column hcolumn
    simp only [oneRow, List.mem_cons, List.not_mem_nil, or_false] at hcolumn
    rcases hcolumn with rfl | rfl
    · show lower "data_file" = "data_file"
      decide
    · show lower "status" ≠ "data_file"
      decide
  status := ⟨"status", .simple .integer, .int32 [1], by simp [oneRow], rfl⟩
  dataFile := by
    refine ⟨"data_file", _, List.mem_cons_self, fun field hfield => ?_⟩
    simp only [childNamesV2, List.mem_cons, List.not_mem_nil, or_false] at hfield
    rcases hfield with rfl | rfl | rfl | rfl
    · exact ⟨_, List.mem_cons_self, rfl⟩
    · exact ⟨_, List.mem_cons_of_mem _ List.mem_cons_self, rfl⟩
    · exact ⟨_, List.mem_cons_of_mem _ (List.mem_cons_of_mem _ List.mem_cons_self), rfl⟩
    · exact ⟨_, List.mem_cons_of_mem _ (List.mem_cons_of_mem _
        (List.mem_cons_of_mem _ List.mem_cons_self)), rfl⟩

/-- With the columns the other way round and another one in front. -/
theorem entries_rearranged_oneRow :
    ∃ M', Rearranges ⟨oneRow.columns.reverse, 1, by decide⟩ M' ∧
      M'.columns.map (fun column => column.layout.1) = ["partition", "status", "data_file"] ∧
      M'.entriesV2 0 1 false [] = oneRow.entriesV2 0 1 false [] ∧
      oneRow.entriesV2 0 1 false [] = oneRow.entriesV1 0 1 false [] := by
  have hmoved : Rearranges oneRow ⟨oneRow.columns.reverse, 1, by decide⟩ :=
    .moveColumns (List.reverse_perm _)
  have hadded : Rearranges ⟨oneRow.columns.reverse, 1, by decide⟩ _ :=
    @Rearranges.addColumn _ "partition" (.simple .varchar) (.varchar ["a"]) (by decide +kernel)
  obtain ⟨-, hv2, hzero⟩ := entries_rearranged
    ((Relation.ReflTransGen.single hmoved).tail hadded)
  refine ⟨_, hadded, rfl, (hv2 wellFormed_oneRow).2.2 _ _ _ _, hzero wellFormed_oneRow _ _ _ _ ?_⟩
  refine ⟨"data_file", _, _, [0], List.mem_cons_self, List.mem_cons_self, rfl, rfl, fun i hi => ?_⟩
  obtain rfl : i = 0 := by omega
  rfl

end ManifestRows

end DuckIceberg
