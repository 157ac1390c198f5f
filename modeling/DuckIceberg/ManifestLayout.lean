import DuckIceberg.ReadRuns

/-!
# Layouts of manifests

A layout is the list of the columns of an Avro file.  `PopulateNameMapping` flattens it into a map from
names to columns in which the last field of a name stays, `VerifySchema` looks whether some names are
in it, and `ProduceEntries` looks its columns up there (`acceptedReadable_iff`).
-/

namespace DuckIceberg

open Strings

/-! ### The fields of a layout -/

/-- The fields of one column: the children of `data_file`, or the column itself. -/
def columnFields (column : (String × LogicalType) × ℕ) : List (String × ColumnIndex) :=
  if lower column.1.1 ≠ "data_file" then [(lower column.1.1, ⟨column.2, []⟩)]
  else
    match column.1.2 with
    | .struct children =>
      children.zipIdx.map fun child => (lower child.1.1, ⟨column.2, [child.2]⟩)
    | _ => []

/-- The fields of a manifest with these columns. -/
def entryFields (columns : List (String × LogicalType)) : List (String × ColumnIndex) :=
  columns.zipIdx.flatMap columnFields

/-- The fields of a manifest list with these columns. -/
def manifestFields (columns : List (String × LogicalType)) : List (String × ColumnIndex) :=
  columns.zipIdx.map fun column => (column.1.1, ⟨column.2, []⟩)

/-- The last of the fields that has this name. -/
def fieldOf (fields : List (String × ColumnIndex)) (name : String) : Option ColumnIndex :=
  (fields.reverse.find? fun field => lower field.1 = lower name).map Prod.snd

/-- Every `data_file` is a struct. -/
def StructDataFiles (columns : List (String × LogicalType)) : Prop :=
  ∀ column ∈ columns, lower column.1 = "data_file" → ∃ children, column.2 = .struct children

theorem fieldOf_eq_none_iff {fields : List (String × ColumnIndex)} {name : String} :
    fieldOf fields name = none ↔ ∀ field ∈ fields, ¬ ciEquals field.1 name := by
  rw [fieldOf, Option.map_eq_none_iff, List.find?_eq_none]
  simp [ciEquals]

theorem mem_of_fieldOf {fields : List (String × ColumnIndex)} {name : String} {i : ColumnIndex}
    (h : fieldOf fields name = some i) : ∃ field ∈ fields, ciEquals field.1 name ∧ field.2 = i := by
  obtain ⟨field, hfind, rfl⟩ := Option.map_eq_some_iff.1 h
  refine ⟨field, List.mem_reverse.1 (List.mem_of_find?_eq_some hfind), ?_, rfl⟩
  have hname := List.find?_some hfind
  simpa [ciEquals] using hname

/-- A field is a column, or a child of a `data_file`. -/
theorem mem_entryFields {columns : List (String × LogicalType)} {field : String × ColumnIndex}
    (h : field ∈ entryFields columns) :
    (∃ column, columns[field.2.index]? = some column ∧ field.2.childIndexes = []) ∨
      ∃ name children c, columns[field.2.index]? = some (name, .struct children) ∧
        field.2.childIndexes = [c] ∧ c < children.length := by
  obtain ⟨⟨⟨name, type⟩, i⟩, hcolumn, hfield⟩ := List.mem_flatMap.1 h
  have hi : columns[i]? = some (name, type) := by
    rw [List.mem_zipIdx_iff_getElem?] at hcolumn
    exact hcolumn
  unfold columnFields at hfield
  split_ifs at hfield with hname
  · obtain rfl := List.mem_singleton.1 hfield
    exact Or.inl ⟨_, hi, rfl⟩
  · dsimp only at hfield
    split at hfield
    · rename_i children
      obtain ⟨⟨child, c⟩, hchild, rfl⟩ := List.mem_map.1 hfield
      rw [List.mem_zipIdx_iff_getElem?] at hchild
      exact Or.inr ⟨name, children, c, hi, rfl, (List.getElem?_eq_some_iff.1 hchild).1⟩
    · cases hfield

theorem mem_manifestFields {columns : List (String × LogicalType)} {field : String × ColumnIndex}
    (h : field ∈ manifestFields columns) :
    ∃ column, columns[field.2.index]? = some column ∧ column.1 = field.1 := by
  obtain ⟨⟨column, i⟩, hcolumn, rfl⟩ := List.mem_map.1 h
  rw [List.mem_zipIdx_iff_getElem?] at hcolumn
  exact ⟨column, hcolumn, rfl⟩

/-! ### The map of a layout -/

theorem populate_manifest (columns : List ((String × LogicalType) × ℕ)) (m : NameMap) :
    ManifestReader.populate manifestNameMapping columns m =
      (.ok (), m.insertAll (columns.map fun column => (column.1.1, ⟨column.2, []⟩))) := by
  induction columns generalizing m with
  | nil => rfl
  | cons column columns ih => exact ih _

theorem foldl_insert_children (columnId : ℕ) (children : List ((String × LogicalType) × ℕ))
    (m : NameMap) :
    children.foldl (fun m child => NormMap.insert m (lower child.1.1) ⟨columnId, [child.2]⟩) m =
      m.insertAll (children.map fun child => (lower child.1.1, ⟨columnId, [child.2]⟩)) := by
  rw [NormMap.insertAll, List.foldl_map]

/-- One column enters its fields into the map. -/
theorem entryNameMapping_eq {name : String} {type : LogicalType} (i : ℕ) (m : NameMap)
    (h : lower name = "data_file" → ∃ children, type = .struct children) :
    entryNameMapping i type name m = .ok (m.insertAll (columnFields ((name, type), i))) := by
  unfold entryNameMapping columnFields
  by_cases hname : lower name = "data_file"
  · obtain ⟨children, rfl⟩ := h hname
    simp only [hname, ne_eq, not_true_eq_false, if_false]
    exact congrArg _ (foldl_insert_children i children.zipIdx m)
  · simp only [ne_eq, hname, not_false_eq_true, if_true]
    rfl

theorem insertAll_append (m : NameMap) (fields fields' : List (String × ColumnIndex)) :
    m.insertAll (fields ++ fields') = (m.insertAll fields).insertAll fields' :=
  List.foldl_append

theorem populate_entry {columns : List ((String × LogicalType) × ℕ)} (m : NameMap)
    (h : StructDataFiles (columns.map Prod.fst)) :
    ManifestReader.populate entryNameMapping columns m =
      (.ok (), m.insertAll (columns.flatMap columnFields)) := by
  induction columns generalizing m with
  | nil => rfl
  | cons column columns ih =>
    obtain ⟨hcolumn, hcolumns⟩ := List.forall_mem_cons.1 h
    obtain ⟨⟨name, type⟩, i⟩ := column
    rw [ManifestReader.populate, entryNameMapping_eq i m hcolumn, List.flatMap_cons,
      insertAll_append]
    exact ih _ hcolumns

/-- A `data_file` that is no struct is refused. -/
theorem populate_entry_error (columns : List ((String × LogicalType) × ℕ)) (m : NameMap)
    (h : ¬ StructDataFiles (columns.map Prod.fst)) :
    (ManifestReader.populate entryNameMapping columns m).1 =
      .error ⟨.invalidInput, "The 'data_file' of the manifest should be a STRUCT"⟩ := by
  induction columns generalizing m with
  | nil => exact absurd (fun _ hc => nomatch hc) h
  | cons column columns ih =>
    obtain ⟨⟨name, type⟩, i⟩ := column
    rw [ManifestReader.populate]
    by_cases hcolumn : lower name = "data_file" → ∃ children, type = .struct children
    · rw [entryNameMapping_eq i m hcolumn]
      exact ih _ fun hcolumns => h (List.forall_mem_cons.2 ⟨hcolumn, hcolumns⟩)
    · rw [Classical.not_imp, not_exists] at hcolumn
      have herror : entryNameMapping i type name m =
          .error ⟨.invalidInput, "The 'data_file' of the manifest should be a STRUCT"⟩ := by
        unfold entryNameMapping
        simp only [hcolumn.1, ne_eq, not_true_eq_false, if_false]
        cases type with
        | struct children => exact absurd rfl (hcolumn.2 children)
        | _ => rfl
      rw [herror]

theorem map_fst_zipIdx {α : Type} (l : List α) : l.zipIdx.map Prod.fst = l := by
  simp

/-- The map of a layout has the last field of every name. -/
theorem find?_fields (fields : List (String × ColumnIndex)) (name : String) :
    NormMap.find? (NormMap.insertAll (NormMap.empty : NameMap) fields) name =
      fieldOf fields name := by
  rw [NormMap.find?_insertAll, NormMap.find?_empty, Option.or_none]
  rfl

/-! ### What the producers look up -/

/-- A lookup of `ProduceEntries` in the map and in the columns of the chunk, or an assertion about the
map. -/
inductive Lookup
  /-- `chunk.data[name_to_vec.at(name).GetPrimaryIndex()]` -/
  | column (name : String)
  /-- `*child_entries[name_to_vec.at(name).GetChildIndex(0).GetPrimaryIndex()]`, with the child
  entries of the column of `file_path` -/
  | child (name : String)
  /-- `D_ASSERT(name_to_vec.at(name).GetPrimaryIndex())` -/
  | assertIndex (name : String)
  /-- `D_ASSERT(name_to_vec.at(name).GetPrimaryIndex() == data_file_idx)` -/
  | assertDataFile (name : String)

def IcebergManifestV1.lookups : List Lookup := [.column "manifest_path"]

def IcebergManifestV2.lookups : List Lookup :=
  [.column "manifest_path", .column "content", .column "sequence_number"]

def IcebergManifestEntryV1.lookups : List Lookup :=
  [.column "status", .assertIndex "file_format", .assertIndex "record_count", .child "file_path",
    .child "file_format", .child "record_count"]

def IcebergManifestEntryV2.lookups : List Lookup :=
  [.column "status", .assertDataFile "file_format", .assertDataFile "record_count",
    .assertDataFile "content", .child "content", .child "file_path", .child "file_format",
    .child "record_count"]

/-- The lookup succeeds: the name is in the map, the column is there, and a child is one of the struct
that `file_path` is in. -/
def Lookup.Succeeds (m : NameMap) (data : List Vector) : Lookup → Prop
  | .column name => ∃ i v, m.atName name = .ok i ∧ DuckIceberg.column data i.index = .ok v
  | .child name => ∃ i es j c v, m.atName "file_path" = .ok i ∧
      DuckIceberg.column data i.index = .ok (.struct es) ∧ m.atName name = .ok j ∧
        j.index = i.index ∧ j.child = .ok c ∧ DuckIceberg.column es c = .ok v
  | .assertIndex name => ∃ i, m.atName name = .ok i ∧ i.index ≠ 0
  | .assertDataFile name => ∃ i j, m.atName "file_path" = .ok i ∧ m.atName name = .ok j ∧
      j.index = i.index

/-- The vector is one of a column of this type, as far as structs go. -/
def Vector.OfType : LogicalType → Vector → Prop
  | .struct children, v => ∃ es, v = .struct es ∧ es.length = children.length
  | _, _ => True

/-- The chunk has the layout. -/
def OfLayout (columns : List (String × LogicalType)) (chunk : DataChunk) : Prop :=
  List.Forall₂ (fun column v => Vector.OfType column.2 v) columns chunk.data

theorem exists_ofLayout (columns : List (String × LogicalType)) :
    ∃ chunk, OfLayout columns chunk := by
  have hvector : ∀ type, ∃ v, Vector.OfType type v := by
    intro type
    cases type with
    | struct children =>
      exact ⟨.struct (children.map fun _ => .other), _, rfl, List.length_map _⟩
    | _ => exact ⟨.other, trivial⟩
  have hdata : ∃ data, List.Forall₂
      (fun (column : String × LogicalType) v => Vector.OfType column.2 v) columns data := by
    induction columns with
    | nil => exact ⟨[], .nil⟩
    | cons column columns ih =>
      obtain ⟨v, hv⟩ := hvector column.2
      obtain ⟨data, hdata⟩ := ih
      exact ⟨v :: data, .cons hv hdata⟩
  obtain ⟨data, hdata⟩ := hdata
  exact ⟨⟨[], data, 0, Nat.zero_le _⟩, hdata⟩

/-- A column of the layout is a column of the chunk. -/
theorem OfLayout.getElem? {columns : List (String × LogicalType)} {chunk : DataChunk}
    (h : OfLayout columns chunk) {i : ℕ} {c : String × LogicalType}
    (hc : columns[i]? = some c) :
    ∃ v, column chunk.data i = .ok v ∧ Vector.OfType c.2 v := by
  obtain ⟨hi, rfl⟩ := List.getElem?_eq_some_iff.1 hc
  have hi' : i < chunk.data.length := h.length_eq ▸ hi
  refine ⟨chunk.data[i], ?_, List.Forall₂.get h hi hi'⟩
  rw [column, List.getElem?_eq_getElem hi']

/-! ### Reading what was looked up -/

/-- Reads vectors as ones of other types at worst. -/
def Reads {α : Type} (x : Except Error α) : Prop := ∀ e, x = .error e → e.type = .undefined

theorem Reads.ok {α : Type} (a : α) : Reads (.ok a) := nofun

/-- What was looked up is read further. -/
theorem Reads.bind_ok {α β : Type} {x : Except Error α} {f : α → Except Error β} {a : α}
    (hx : x = .ok a) (hf : Reads (f a)) : Reads (x >>= f) := by
  rw [hx]
  exact hf

theorem Reads.bind {α β : Type} {x : Except Error α} {f : α → Except Error β} (hx : Reads x)
    (hf : ∀ a, Reads (f a)) : Reads (x >>= f) := by
  intro e he
  rcases bind_eq_error.1 he with he | ⟨a, -, he⟩
  · exact hx e he
  · exact hf a e he

theorem Vector.reads_int32s (v : Vector) : Reads v.int32s := by
  intro e h
  unfold Vector.int32s at h
  split at h <;> cases h
  rfl

theorem Vector.reads_int64s (v : Vector) : Reads v.int64s := by
  intro e h
  unfold Vector.int64s at h
  split at h <;> cases h
  rfl

theorem Vector.reads_varchars (v : Vector) : Reads v.varchars := by
  intro e h
  unfold Vector.varchars at h
  split at h <;> cases h
  rfl

section

variable {m : NameMap} {chunk : DataChunk}

theorem IcebergManifestV1.reads_row
    (h : ∀ l ∈ IcebergManifestV1.lookups, l.Succeeds m chunk.data) :
    Reads (IcebergManifestV1.row m chunk) := by
  obtain ⟨i, v, hi, hv⟩ := h (.column "manifest_path") (by simp [lookups])
  refine .bind_ok hi (.bind_ok hv (.bind v.reads_varchars fun _ => ?_))
  exact .ok _

theorem IcebergManifestV2.reads_row
    (h : ∀ l ∈ IcebergManifestV2.lookups, l.Succeeds m chunk.data) :
    Reads (IcebergManifestV2.row m chunk) := by
  obtain ⟨i, v, hi, hv⟩ := h (.column "manifest_path") (by simp [lookups])
  obtain ⟨i', v', hi', hv'⟩ := h (.column "content") (by simp [lookups])
  obtain ⟨i'', v'', hi'', hv''⟩ := h (.column "sequence_number") (by simp [lookups])
  refine .bind_ok hi (.bind_ok hv (.bind v.reads_varchars fun _ => ?_))
  refine .bind_ok hi' (.bind_ok hv' (.bind v'.reads_int32s fun _ => ?_))
  refine .bind_ok hi'' (.bind_ok hv'' (.bind v''.reads_int64s fun _ => ?_))
  exact .ok _

/-- The children are those of the struct that `file_path` is in. -/
theorem child_of_succeeds {name : String} {i : ColumnIndex} {es : List Vector}
    (hi : m.atName "file_path" = .ok i) (hes : column chunk.data i.index = .ok (.struct es))
    (h : (Lookup.child name).Succeeds m chunk.data) :
    ∃ j c v, m.atName name = .ok j ∧ j.child = .ok c ∧ column es c = .ok v := by
  obtain ⟨i', es', j, c, v, hi', hes', hj, -, hc, hv⟩ := h
  obtain rfl := Except.ok.inj (hi.symm.trans hi')
  obtain rfl := Vector.struct.inj (Except.ok.inj (hes.symm.trans hes'))
  exact ⟨j, c, v, hj, hc, hv⟩

theorem IcebergManifestEntryV1.reads_row
    (h : ∀ l ∈ IcebergManifestEntryV1.lookups, l.Succeeds m chunk.data) :
    Reads (IcebergManifestEntryV1.row m chunk) := by
  obtain ⟨s, vs, hs, hvs⟩ := h (.column "status") (by simp [lookups])
  obtain ⟨i, es, i', c, v, hi, hes, hi', -, hc, hv⟩ := h (.child "file_path") (by simp [lookups])
  obtain rfl := Except.ok.inj (hi.symm.trans hi')
  obtain ⟨j, c', v', hj, hc', hv'⟩ :=
    child_of_succeeds hi hes (h (.child "file_format") (by simp [lookups]))
  obtain ⟨k, c'', v'', hk, hc'', hv''⟩ :=
    child_of_succeeds hi hes (h (.child "record_count") (by simp [lookups]))
  refine .bind_ok hs (.bind_ok hvs (.bind vs.reads_int32s fun _ => ?_))
  refine .bind_ok hi (.bind_ok hes (.bind_ok rfl ?_))
  refine .bind_ok hc (.bind_ok hv (.bind v.reads_varchars fun _ => ?_))
  refine .bind_ok hj (.bind_ok hc' (.bind_ok hv' (.bind v'.reads_varchars fun _ => ?_)))
  refine .bind_ok hk (.bind_ok hc'' (.bind_ok hv'' (.bind v''.reads_int64s fun _ => ?_)))
  exact .ok _

theorem IcebergManifestEntryV2.reads_row
    (h : ∀ l ∈ IcebergManifestEntryV2.lookups, l.Succeeds m chunk.data) :
    Reads (IcebergManifestEntryV2.row m chunk) := by
  obtain ⟨s, vs, hs, hvs⟩ := h (.column "status") (by simp [lookups])
  obtain ⟨i, es, i', c, v, hi, hes, hi', -, hc, hv⟩ := h (.child "file_path") (by simp [lookups])
  obtain rfl := Except.ok.inj (hi.symm.trans hi')
  obtain ⟨l, d, w, hl, hd, hw⟩ :=
    child_of_succeeds hi hes (h (.child "content") (by simp [lookups]))
  obtain ⟨j, c', v', hj, hc', hv'⟩ :=
    child_of_succeeds hi hes (h (.child "file_format") (by simp [lookups]))
  obtain ⟨k, c'', v'', hk, hc'', hv''⟩ :=
    child_of_succeeds hi hes (h (.child "record_count") (by simp [lookups]))
  refine .bind_ok hs (.bind_ok hvs (.bind vs.reads_int32s fun _ => ?_))
  refine .bind_ok hi (.bind_ok hes (.bind_ok rfl ?_))
  refine .bind_ok hl (.bind_ok hd (.bind_ok hw (.bind w.reads_int32s fun _ => ?_)))
  refine .bind_ok hc (.bind_ok hv (.bind v.reads_varchars fun _ => ?_))
  refine .bind_ok hj (.bind_ok hc' (.bind_ok hv' (.bind v'.reads_varchars fun _ => ?_)))
  refine .bind_ok hk (.bind_ok hc'' (.bind_ok hv'' (.bind v''.reads_int64s fun _ => ?_)))
  exact .ok _

end

/-- A producer reads what its lookups of a row read. -/
theorem reads_produceEntries {α : Type} (op : ManifestFormat α) {m : NameMap} {chunk : DataChunk}
    (h : Reads (op.row m chunk)) (offset count : ℕ) (skipDeleted : Bool) (result : List α) :
    Reads (op.produceEntries chunk offset count ⟨m, skipDeleted⟩ result) := by
  intro e he
  rw [op.produceEntries_eq] at he
  cases hrow : op.row m chunk with
  | error e' =>
    rw [hrow] at he
    obtain rfl := Except.error.inj he
    exact h _ hrow
  | ok row =>
    rw [hrow] at he
    cases he

/-! ### Accepted layouts -/

/-- An accepted layout can be read: whatever chunk has it, the lookups of the producer succeed, and all
that can go wrong is that vectors are of other types.  A layout that is not accepted is refused by an
exception. -/
def AcceptedReadable {α : Type} (op : ManifestFormat α) (lookups : List Lookup)
    (columns : List (String × LogicalType)) : Prop :=
  ∀ (r : ManifestReader) (scan : AvroScan), r.ReaderOf op → scan.columns = columns →
    match r.initializeWith scan with
    | (.ok (), r') => ∀ chunk, OfLayout columns chunk →
        (∀ l ∈ lookups, l.Succeeds r'.nameToVec chunk.data) ∧
          ∀ offset count skipDeleted result, Reads
            (op.produceEntries chunk offset count ⟨r'.nameToVec, skipDeleted⟩ result)
    | (.error e, _) => e.type = .invalidInput

section Accepted

variable {α : Type} {op : ManifestFormat α} {lookups : List Lookup}
  {columns : List (String × LogicalType)} {m : NameMap}

/-- For an accepted layout it is left to show that the lookups succeed. -/
theorem acceptedReadable_of_accepted
    (hpopulate : ManifestReader.populate op.populateNameMapping columns.zipIdx .empty = (.ok (), m))
    (hverify : op.verifySchema m = true)
    (hreads : ∀ chunk : DataChunk, (∀ l ∈ lookups, l.Succeeds m chunk.data) →
      Reads (op.row m chunk)) :
    AcceptedReadable op lookups columns ↔
      ∀ chunk, OfLayout columns chunk → ∀ l ∈ lookups, l.Succeeds m chunk.data := by
  have hinit : ∀ (r : ManifestReader) (scan : AvroScan), r.ReaderOf op → scan.columns = columns →
      ∃ r', r.initializeWith scan = (.ok (), r') ∧ r'.nameToVec = m := by
    intro r scan hr hcolumns
    refine ⟨{ r.install scan with nameToVec := m }, ?_, rfl⟩
    rw [ManifestReader.initializeWith, hr.nameMapping, hcolumns, hpopulate]
    dsimp only
    rw [hr.schemaValidation, if_pos hverify]
  constructor
  · intro h chunk hchunk
    obtain ⟨r', hr', rfl⟩ := hinit (.make op) ⟨columns, [], false⟩
      (ManifestReader.make_readerOf op) rfl
    have haccepted := h (.make op) ⟨columns, [], false⟩ (ManifestReader.make_readerOf op) rfl
    rw [hr'] at haccepted
    exact (haccepted chunk hchunk).1
  · intro h r scan hr hcolumns
    obtain ⟨r', hr', rfl⟩ := hinit r scan hr hcolumns
    rw [hr']
    intro chunk hchunk
    have hlookups := h chunk hchunk
    exact ⟨hlookups, reads_produceEntries op (hreads chunk hlookups)⟩

/-- A layout that is not accepted is refused. -/
theorem acceptedReadable_of_refused
    (h : (∃ e : Error, (ManifestReader.populate op.populateNameMapping columns.zipIdx .empty).1 =
        .error e ∧ e.type = .invalidInput) ∨
      (ManifestReader.populate op.populateNameMapping columns.zipIdx .empty = (.ok (), m) ∧
        op.verifySchema m = false)) : AcceptedReadable op lookups columns := by
  intro r scan hr hcolumns
  rw [ManifestReader.initializeWith, hr.nameMapping, hcolumns]
  rcases h with ⟨e, he, htype⟩ | ⟨hpopulate, hverify⟩
  · generalize ManifestReader.populate op.populateNameMapping columns.zipIdx .empty = res at he
    obtain ⟨res, m'⟩ := res
    dsimp only at he
    subst he
    exact htype
  · rw [hpopulate]
    dsimp only
    rw [hr.schemaValidation, hverify]
    rfl

/-! ### Names and fields -/

/-- A field has this name. -/
def HasField (fields : List (String × ColumnIndex)) (name : String) : Prop :=
  ∃ field ∈ fields, ciEquals field.1 name

instance (fields : List (String × ColumnIndex)) (name : String) : Decidable (HasField fields name) :=
  inferInstanceAs (Decidable (∃ field ∈ fields, ciEquals field.1 name))

theorem fieldOf_isSome_iff {fields : List (String × ColumnIndex)} {name : String} :
    (fieldOf fields name).isSome = true ↔ HasField fields name := by
  rw [Option.isSome_iff_ne_none, ne_eq, fieldOf_eq_none_iff, HasField]
  simp

theorem count_fields {fields : List (String × ColumnIndex)} {name : String} :
    NameMap.count (NormMap.insertAll NormMap.empty fields) name = true ↔ HasField fields name := by
  rw [NameMap.count, find?_fields, fieldOf_isSome_iff]

theorem atName_fields_iff {fields : List (String × ColumnIndex)} {name : String} {i : ColumnIndex} :
    NameMap.atName (NormMap.insertAll NormMap.empty fields) name = .ok i ↔
      fieldOf fields name = some i := by
  rw [NameMap.atName, find?_fields]
  cases fieldOf fields name with
  | none => simp
  | some j => simp

/-- A column is looked up when there is a field of its name. -/
theorem succeeds_column_iff {fields : List (String × ColumnIndex)} {chunk : DataChunk}
    (hfields : ∀ field ∈ fields, ∃ column, columns[field.2.index]? = some column)
    (hchunk : OfLayout columns chunk) (name : String) :
    (Lookup.column name).Succeeds (NormMap.insertAll NormMap.empty fields) chunk.data ↔
      HasField fields name := by
  constructor
  · rintro ⟨i, v, hi, -⟩
    obtain ⟨field, hfield, hname, -⟩ := mem_of_fieldOf (atName_fields_iff.1 hi)
    exact ⟨field, hfield, hname⟩
  · intro h
    obtain ⟨i, hi⟩ := Option.isSome_iff_exists.1 (fieldOf_isSome_iff.2 h)
    obtain ⟨field, hfield, -, rfl⟩ := mem_of_fieldOf hi
    obtain ⟨column, hcolumn⟩ := hfields field hfield
    obtain ⟨v, hv, -⟩ := hchunk.getElem? hcolumn
    exact ⟨field.2, v, atName_fields_iff.2 hi, hv⟩

end Accepted

/-! ### Manifest lists -/

section Lists

variable {columns : List (String × LogicalType)} {chunk : DataChunk}

theorem succeeds_manifestColumn_iff (hchunk : OfLayout columns chunk) (name : String) :
    (Lookup.column name).Succeeds (NormMap.insertAll NormMap.empty (manifestFields columns))
      chunk.data ↔ HasField (manifestFields columns) name := by
  refine succeeds_column_iff (fun field hfield => ?_) hchunk name
  obtain ⟨column, hcolumn, -⟩ := mem_manifestFields hfield
  exact ⟨column, hcolumn⟩

theorem acceptedReadable_manifestV1 (columns : List (String × LogicalType)) :
    AcceptedReadable icebergManifestV1 IcebergManifestV1.lookups columns := by
  have hpopulate := populate_manifest columns.zipIdx .empty
  by_cases hpath : HasField (manifestFields columns) "manifest_path"
  · refine (acceptedReadable_of_accepted hpopulate (count_fields.2 hpath)
      fun _ => IcebergManifestV1.reads_row).2 fun chunk hchunk l hl => ?_
    obtain rfl := List.mem_singleton.1 hl
    exact (succeeds_manifestColumn_iff hchunk _).2 hpath
  · exact acceptedReadable_of_refused
      (Or.inr ⟨hpopulate, Bool.eq_false_iff.2 fun h => hpath (count_fields.1 h)⟩)

theorem verifySchema_manifestV2 {m : NameMap} :
    IcebergManifestV2.verifySchema m = true ↔
      m.count "manifest_path" = true ∧ m.count "content" = true := by
  rw [IcebergManifestV2.verifySchema, IcebergManifestV1.verifySchema, Bool.and_eq_true]

/-- `VerifySchema` does not look for `sequence_number`. -/
theorem acceptedReadable_manifestV2_iff (columns : List (String × LogicalType)) :
    AcceptedReadable icebergManifestV2 IcebergManifestV2.lookups columns ↔
      (HasField (manifestFields columns) "manifest_path" →
        HasField (manifestFields columns) "content" →
          HasField (manifestFields columns) "sequence_number") := by
  have hpopulate := populate_manifest columns.zipIdx .empty
  by_cases haccepted : HasField (manifestFields columns) "manifest_path" ∧
      HasField (manifestFields columns) "content"
  · obtain ⟨hpath, hcontent⟩ := haccepted
    have hverify : IcebergManifestV2.verifySchema
        (NormMap.insertAll NormMap.empty (manifestFields columns)) = true :=
      verifySchema_manifestV2.2 ⟨count_fields.2 hpath, count_fields.2 hcontent⟩
    rw [acceptedReadable_of_accepted hpopulate hverify fun _ => IcebergManifestV2.reads_row]
    constructor
    · intro h _ _
      obtain ⟨chunk, hchunk⟩ := exists_ofLayout columns
      exact (succeeds_manifestColumn_iff hchunk _).1
        (h chunk hchunk (.column "sequence_number") (by simp [IcebergManifestV2.lookups]))
    · intro h chunk hchunk l hl
      simp only [IcebergManifestV2.lookups, List.mem_cons, List.not_mem_nil, or_false] at hl
      rcases hl with rfl | rfl | rfl
      · exact (succeeds_manifestColumn_iff hchunk _).2 hpath
      · exact (succeeds_manifestColumn_iff hchunk _).2 hcontent
      · exact (succeeds_manifestColumn_iff hchunk _).2 (h hpath hcontent)
  · refine iff_of_true (acceptedReadable_of_refused (Or.inr ⟨hpopulate, ?_⟩))
      fun hpath hcontent => absurd ⟨hpath, hcontent⟩ haccepted
    rw [Bool.eq_false_iff]
    intro h
    obtain ⟨hpath, hcontent⟩ := verifySchema_manifestV2.1 h
    exact haccepted ⟨count_fields.1 hpath, count_fields.1 hcontent⟩

end Lists

end DuckIceberg
