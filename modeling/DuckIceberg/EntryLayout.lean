import DuckIceberg.ManifestLayout

/-!
# Layouts of manifest entries

The names that a producer of manifest entries reads inside `data_file` have to be the names of its
children.  `VerifySchema` looks whether the names are in the map, which they also are when columns are
called so, or the children of another `data_file`.
-/

namespace DuckIceberg

open Strings

section Entries

variable {columns : List (String × LogicalType)} {chunk : DataChunk} {names : List String}

/-- The last fields of these names are children of the column with this index. -/
def InDataFile (columns : List (String × LogicalType)) (i : ℕ) (names : List String) : Prop :=
  ∀ name ∈ names, ∃ c, fieldOf (entryFields columns) name = some ⟨i, [c]⟩

/-- The map of a layout. -/
def entryMap (columns : List (String × LogicalType)) : NameMap :=
  NormMap.insertAll NormMap.empty (entryFields columns)

theorem populate_entryMap (h : StructDataFiles columns) :
    ManifestReader.populate entryNameMapping columns.zipIdx .empty = (.ok (), entryMap columns) :=
  populate_entry .empty (by rwa [map_fst_zipIdx])

theorem succeeds_entryColumn_iff (hchunk : OfLayout columns chunk) (name : String) :
    (Lookup.column name).Succeeds (entryMap columns) chunk.data ↔
      HasField (entryFields columns) name := by
  refine succeeds_column_iff (fun field hfield => ?_) hchunk name
  rcases mem_entryFields hfield with ⟨column, hcolumn, -⟩ | ⟨name, children, c, hcolumn, -, -⟩
  · exact ⟨column, hcolumn⟩
  · exact ⟨_, hcolumn⟩

/-- A field that is a child is one of the struct in its column. -/
theorem struct_of_fieldOf (hchunk : OfLayout columns chunk) {name : String} {i c : ℕ}
    (h : fieldOf (entryFields columns) name = some ⟨i, [c]⟩) :
    ∃ es, column chunk.data i = .ok (.struct es) ∧ ∃ v, column es c = .ok v := by
  obtain ⟨field, hfield, -, hi⟩ := mem_of_fieldOf h
  rcases mem_entryFields hfield with ⟨-, -, hnone⟩ | ⟨name, children, c', hcolumn, hchild, hlt⟩
  · rw [hi] at hnone
    cases hnone
  · rw [hi] at hcolumn hchild
    obtain rfl := List.singleton_inj.1 hchild
    obtain ⟨v, hv, es, rfl, hlen⟩ := hchunk.getElem? hcolumn
    refine ⟨es, hv, es[c], ?_⟩
    rw [column, List.getElem?_eq_getElem (hlen ▸ hlt)]

/-- A name that is looked up in a struct is that of a child. -/
theorem eq_singleton_of_child {name : String} {j : ColumnIndex} {c : ℕ}
    (hj : fieldOf (entryFields columns) name = some j) (hc : j.child = .ok c) : j = ⟨j.index, [c]⟩ := by
  obtain ⟨index, childIndexes⟩ := j
  obtain ⟨field, hfield, -, hi⟩ := mem_of_fieldOf hj
  rcases mem_entryFields hfield with ⟨-, -, hnone⟩ | ⟨-, -, c', -, hchild, -⟩
  · rw [hi] at hnone
    dsimp only at hnone
    subst hnone
    cases hc
  · rw [hi] at hchild
    dsimp only at hchild
    subst hchild
    obtain rfl := Except.ok.inj hc
    rfl

/-- **The children are there** when all of the names, with that of the path, are fields of one column. -/
theorem succeeds_children_iff (hpath : "file_path" ∈ names) (hchunk : OfLayout columns chunk) :
    (∀ name ∈ names, (Lookup.child name).Succeeds (entryMap columns) chunk.data) ↔
      ∃ i, InDataFile columns i names := by
  constructor
  · intro h
    obtain ⟨i, -, -, -, -, hi, -, -⟩ := h _ hpath
    refine ⟨i.index, fun name hname => ?_⟩
    obtain ⟨i', es, j, c, v, hi', -, hj, hindex, hc, -⟩ := h name hname
    obtain rfl := Except.ok.inj (hi.symm.trans hi')
    have hfield := atName_fields_iff.1 hj
    refine ⟨c, ?_⟩
    rw [hfield, eq_singleton_of_child hfield hc, hindex]
  · rintro ⟨i, hi⟩ name hname
    obtain ⟨a, ha⟩ := hi _ hpath
    obtain ⟨c, hc⟩ := hi _ hname
    obtain ⟨es, hes, -⟩ := struct_of_fieldOf hchunk ha
    obtain ⟨es', hes', v, hv⟩ := struct_of_fieldOf hchunk hc
    obtain rfl := Vector.struct.inj (Except.ok.inj (hes.symm.trans hes'))
    exact ⟨_, es, _, c, v, atName_fields_iff.2 ha, hes, atName_fields_iff.2 hc, rfl, rfl, hv⟩

/-- The names that are read inside `data_file`. -/
def childNamesV1 : List String := ["file_path", "file_format", "record_count"]

def childNamesV2 : List String := ["content", "file_path", "file_format", "record_count"]

/-- The lookups in version 1. -/
theorem succeeds_entryV1_iff (hchunk : OfLayout columns chunk) :
    (∀ l ∈ IcebergManifestEntryV1.lookups, l.Succeeds (entryMap columns) chunk.data) ↔
      HasField (entryFields columns) "status" ∧ ∃ i, i ≠ 0 ∧ InDataFile columns i childNamesV1 := by
  constructor
  · intro h
    have hstatus := (succeeds_entryColumn_iff hchunk "status").1
      (h (.column "status") (by simp [IcebergManifestEntryV1.lookups]))
    have hchildren : ∀ name ∈ childNamesV1,
        (Lookup.child name).Succeeds (entryMap columns) chunk.data := by
      intro name hname
      refine h (.child name) ?_
      simp only [childNamesV1, List.mem_cons, List.not_mem_nil, or_false] at hname
      rcases hname with rfl | rfl | rfl <;> simp [IcebergManifestEntryV1.lookups]
    obtain ⟨i, hi⟩ := (succeeds_children_iff (by simp [childNamesV1]) hchunk).1 hchildren
    refine ⟨hstatus, i, ?_, hi⟩
    -- the assertion is about the column of the format
    obtain ⟨j, hj, hne⟩ := h (.assertIndex "file_format") (by simp [IcebergManifestEntryV1.lookups])
    obtain ⟨c, hc⟩ := hi "file_format" (by simp [childNamesV1])
    obtain rfl := Option.some.inj (hc.symm.trans (atName_fields_iff.1 hj))
    exact hne
  · rintro ⟨hstatus, i, hne, hi⟩ l hl
    have hchildren := (succeeds_children_iff (by simp [childNamesV1]) hchunk).2 ⟨i, hi⟩
    have hassert : ∀ name ∈ childNamesV1,
        (Lookup.assertIndex name).Succeeds (entryMap columns) chunk.data := by
      intro name hname
      obtain ⟨c, hc⟩ := hi name hname
      exact ⟨_, atName_fields_iff.2 hc, hne⟩
    simp only [IcebergManifestEntryV1.lookups, List.mem_cons, List.not_mem_nil, or_false] at hl
    rcases hl with rfl | rfl | rfl | rfl | rfl | rfl
    · exact (succeeds_entryColumn_iff hchunk _).2 hstatus
    · exact hassert _ (by simp [childNamesV1])
    · exact hassert _ (by simp [childNamesV1])
    · exact hchildren _ (by simp [childNamesV1])
    · exact hchildren _ (by simp [childNamesV1])
    · exact hchildren _ (by simp [childNamesV1])

/-- The lookups in version 2. -/
theorem succeeds_entryV2_iff (hchunk : OfLayout columns chunk) :
    (∀ l ∈ IcebergManifestEntryV2.lookups, l.Succeeds (entryMap columns) chunk.data) ↔
      HasField (entryFields columns) "status" ∧ ∃ i, InDataFile columns i childNamesV2 := by
  constructor
  · intro h
    have hstatus := (succeeds_entryColumn_iff hchunk "status").1
      (h (.column "status") (by simp [IcebergManifestEntryV2.lookups]))
    have hchildren : ∀ name ∈ childNamesV2,
        (Lookup.child name).Succeeds (entryMap columns) chunk.data := by
      intro name hname
      refine h (.child name) ?_
      simp only [childNamesV2, List.mem_cons, List.not_mem_nil, or_false] at hname
      rcases hname with rfl | rfl | rfl | rfl <;> simp [IcebergManifestEntryV2.lookups]
    exact ⟨hstatus, (succeeds_children_iff (by simp [childNamesV2]) hchunk).1 hchildren⟩
  · rintro ⟨hstatus, i, hi⟩ l hl
    have hchildren := (succeeds_children_iff (by simp [childNamesV2]) hchunk).2 ⟨i, hi⟩
    have hassert : ∀ name ∈ childNamesV2,
        (Lookup.assertDataFile name).Succeeds (entryMap columns) chunk.data := by
      intro name hname
      obtain ⟨a, ha⟩ := hi "file_path" (by simp [childNamesV2])
      obtain ⟨c, hc⟩ := hi name hname
      exact ⟨_, _, atName_fields_iff.2 ha, atName_fields_iff.2 hc, rfl⟩
    simp only [IcebergManifestEntryV2.lookups, List.mem_cons, List.not_mem_nil, or_false] at hl
    rcases hl with rfl | rfl | rfl | rfl | rfl | rfl | rfl | rfl
    · exact (succeeds_entryColumn_iff hchunk _).2 hstatus
    · exact hassert _ (by simp [childNamesV2])
    · exact hassert _ (by simp [childNamesV2])
    · exact hassert _ (by simp [childNamesV2])
    · exact hchildren _ (by simp [childNamesV2])
    · exact hchildren _ (by simp [childNamesV2])
    · exact hchildren _ (by simp [childNamesV2])
    · exact hchildren _ (by simp [childNamesV2])

/-! ### Accepted layouts -/

/-- Every `data_file` is a struct, and there are fields of all these names. -/
def Accepts (columns : List (String × LogicalType)) (names : List String) : Prop :=
  StructDataFiles columns ∧ ∀ name ∈ names, HasField (entryFields columns) name

theorem verifySchema_entryV1 :
    IcebergManifestEntryV1.verifySchema (entryMap columns) = true ↔
      ∀ name ∈ "status" :: childNamesV1, HasField (entryFields columns) name := by
  simp only [IcebergManifestEntryV1.verifySchema, Bool.and_eq_true, childNamesV1, List.forall_mem_cons,
    entryMap, count_fields]
  simp [and_assoc]

theorem verifySchema_entryV2 :
    IcebergManifestEntryV2.verifySchema (entryMap columns) = true ↔
      ∀ name ∈ "status" :: childNamesV2, HasField (entryFields columns) name := by
  rw [IcebergManifestEntryV2.verifySchema, Bool.and_eq_true, verifySchema_entryV1, entryMap,
    count_fields]
  simp only [childNamesV1, childNamesV2, List.forall_mem_cons]
  tauto

/-- A format with these names is readable when they are found where they are looked up. -/
theorem acceptedReadable_entry_iff {op : ManifestFormat IcebergManifestEntry} {lookups : List Lookup}
    {found : Prop} (hop : op.populateNameMapping = entryNameMapping)
    (hverify : op.verifySchema (entryMap columns) = true ↔
      ∀ name ∈ "status" :: names, HasField (entryFields columns) name)
    (hreads : ∀ chunk : DataChunk, (∀ l ∈ lookups, l.Succeeds (entryMap columns) chunk.data) →
      Reads (op.row (entryMap columns) chunk))
    (hlookups : ∀ chunk, OfLayout columns chunk →
      ((∀ l ∈ lookups, l.Succeeds (entryMap columns) chunk.data) ↔
        HasField (entryFields columns) "status" ∧ found)) :
    AcceptedReadable op lookups columns ↔ (Accepts columns ("status" :: names) → found) := by
  by_cases hstruct : StructDataFiles columns
  · have hpopulate := populate_entryMap hstruct
    rw [← hop] at hpopulate
    by_cases hnames : ∀ name ∈ "status" :: names, HasField (entryFields columns) name
    · have hstatus := hnames _ List.mem_cons_self
      rw [acceptedReadable_of_accepted hpopulate (hverify.2 hnames) hreads]
      constructor
      · intro h _
        obtain ⟨chunk, hchunk⟩ := exists_ofLayout columns
        exact ((hlookups chunk hchunk).1 (h chunk hchunk)).2
      · intro h chunk hchunk
        exact (hlookups chunk hchunk).2 ⟨hstatus, h ⟨hstruct, hnames⟩⟩
    · refine iff_of_true (acceptedReadable_of_refused (Or.inr ⟨hpopulate, ?_⟩))
        fun h => absurd h.2 hnames
      rw [Bool.eq_false_iff]
      exact fun h => hnames (hverify.1 h)
  · have herror := populate_entry_error columns.zipIdx .empty
      (by rwa [map_fst_zipIdx])
    rw [← hop] at herror
    exact iff_of_true (acceptedReadable_of_refused (m := .empty) (Or.inl ⟨_, herror, rfl⟩))
      fun h => absurd h.1 hstruct

end Entries

theorem acceptedReadable_entryV1_iff (columns : List (String × LogicalType)) :
    AcceptedReadable icebergManifestEntryV1 IcebergManifestEntryV1.lookups columns ↔
      (Accepts columns ("status" :: childNamesV1) →
        ∃ i, i ≠ 0 ∧ InDataFile columns i childNamesV1) :=
  acceptedReadable_entry_iff rfl verifySchema_entryV1
    (fun _ => IcebergManifestEntryV1.reads_row) fun _ => succeeds_entryV1_iff

theorem acceptedReadable_entryV2_iff (columns : List (String × LogicalType)) :
    AcceptedReadable icebergManifestEntryV2 IcebergManifestEntryV2.lookups columns ↔
      (Accepts columns ("status" :: childNamesV2) → ∃ i, InDataFile columns i childNamesV2) :=
  acceptedReadable_entry_iff rfl verifySchema_entryV2
    (fun _ => IcebergManifestEntryV2.reads_row) fun _ => succeeds_entryV2_iff

/-- **An accepted layout can be read** always for manifest lists of version 1.  For those of version 2
it has a `sequence_number` too; and for manifests the names that are read inside `data_file` are names
of the children of one column, which for version 1 is not the first. -/
theorem acceptedReadable_iff (columns : List (String × LogicalType)) :
    AcceptedReadable icebergManifestV1 IcebergManifestV1.lookups columns ∧
    (AcceptedReadable icebergManifestV2 IcebergManifestV2.lookups columns ↔
      (HasField (manifestFields columns) "manifest_path" →
        HasField (manifestFields columns) "content" →
          HasField (manifestFields columns) "sequence_number")) ∧
    (AcceptedReadable icebergManifestEntryV1 IcebergManifestEntryV1.lookups columns ↔
      (Accepts columns ("status" :: childNamesV1) →
        ∃ i, i ≠ 0 ∧ InDataFile columns i childNamesV1)) ∧
    (AcceptedReadable icebergManifestEntryV2 IcebergManifestEntryV2.lookups columns ↔
      (Accepts columns ("status" :: childNamesV2) → ∃ i, InDataFile columns i childNamesV2)) :=
  ⟨acceptedReadable_manifestV1 columns, acceptedReadable_manifestV2_iff columns,
    acceptedReadable_entryV1_iff columns, acceptedReadable_entryV2_iff columns⟩

/-! ### Layouts that are accepted and cannot be read -/

/-- A manifest list without sequence numbers. -/
def withoutSequence : List (String × LogicalType) :=
  [("manifest_path", .simple .varchar), ("content", .simple .integer)]

/-- A manifest with its `data_file` in the first column. -/
def dataFileFirst : List (String × LogicalType) :=
  [("data_file", .struct [("file_path", .simple .varchar), ("file_format", .simple .varchar),
    ("record_count", .simple .bigint)]), ("status", .simple .integer)]

/-- A manifest whose path is a column. -/
def pathColumn : List (String × LogicalType) :=
  [("status", .simple .integer), ("file_path", .simple .varchar),
    ("data_file", .struct [("content", .simple .integer), ("file_format", .simple .varchar),
      ("record_count", .simple .bigint)])]

theorem structDataFiles_dataFileFirst : StructDataFiles dataFileFirst := by
  intro column hcolumn _
  simp only [dataFileFirst, List.mem_cons, List.not_mem_nil, or_false] at hcolumn
  rcases hcolumn with rfl | rfl
  · exact ⟨_, rfl⟩
  · exact absurd ‹_› (by decide)

theorem structDataFiles_pathColumn : StructDataFiles pathColumn := by
  intro column hcolumn _
  simp only [pathColumn, List.mem_cons, List.not_mem_nil, or_false] at hcolumn
  rcases hcolumn with rfl | rfl | rfl
  · exact absurd ‹_› (by decide)
  · exact absurd ‹_› (by decide)
  · exact ⟨_, rfl⟩

theorem not_acceptedReadable_layouts :
    ¬ AcceptedReadable icebergManifestV2 IcebergManifestV2.lookups withoutSequence ∧
      ¬ AcceptedReadable icebergManifestEntryV1 IcebergManifestEntryV1.lookups dataFileFirst ∧
      ¬ AcceptedReadable icebergManifestEntryV2 IcebergManifestEntryV2.lookups pathColumn := by
  refine ⟨fun h => ?_, fun h => ?_, fun h => ?_⟩
  · have hsequence := (acceptedReadable_manifestV2_iff _).1 h (by decide +kernel) (by decide +kernel)
    exact absurd hsequence (by decide +kernel)
  · obtain ⟨i, hi, hfile⟩ := (acceptedReadable_entryV1_iff _).1 h
      ⟨structDataFiles_dataFileFirst, by decide +kernel⟩
    obtain ⟨c, hc⟩ := hfile "file_path" (by decide)
    have hfirst : fieldOf (entryFields dataFileFirst) "file_path" = some ⟨0, [0]⟩ := by
      decide +kernel
    obtain ⟨rfl, -⟩ := ColumnIndex.mk.inj (Option.some.inj (hfirst.symm.trans hc))
    exact hi rfl
  · obtain ⟨i, hfile⟩ := (acceptedReadable_entryV2_iff _).1 h
      ⟨structDataFiles_pathColumn, by decide +kernel⟩
    obtain ⟨c, hc⟩ := hfile "file_path" (by decide)
    have hcolumn : fieldOf (entryFields pathColumn) "file_path" = some ⟨1, []⟩ := by
      decide +kernel
    obtain ⟨-, hnone⟩ := ColumnIndex.mk.inj (Option.some.inj (hcolumn.symm.trans hc))
    cases hnone

end DuckIceberg
