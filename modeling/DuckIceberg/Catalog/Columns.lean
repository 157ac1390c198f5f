import DuckIceberg.Catalog.CatalogApi
import DuckIceberg.Metadata
import DuckIceberg.SchemaTypes

/-!
# The columns of a table, in the catalog and in a scan

The catalog takes the columns of a table from the answer of the server, through texts of types; a
scan takes them from the metadata.  The scan decodes every type of Iceberg, the catalog the
primitive ones, but for `time`, `uuid` and `fixed`.

* `typeToLogicalType_iff`: the types that the catalog decodes, and what it decodes them to;
* `columns_agree_iff`: so the two agree exactly when all types of the current schema are among them.
-/

namespace DuckIceberg

open Strings Json IcebergUtils ICUtils IRCAPI

/-! ### Types in the catalog -/

namespace IcebergType

/-- `TypeToLogicalType` knows the type. -/
def inCatalog : IcebergType → Bool
  | primitive p => p ≠ .time ∧ p ≠ .uuid
  | decimal .. => true
  | fixed _ => false
  | list _ => false
  | map .. => false
  | struct _ => false

end IcebergType

section Types

variable {castUInt8 : String → Option (Fin 256)}

theorem not_ok_of_unknown {s : String} (hprim : primitiveType s = none)
    (h : ∀ keyword ∈ keywords, ¬ keyword <+: s.toList) (T : LogicalType) :
    typeToLogicalType castUInt8 s ≠ .ok T := by
  intro hok
  rw [typeToLogicalType, unknown_of_noKeyword castUInt8 (by rwa [String.ofList_toList]) h] at hok
  cases hok

theorem typeToLogicalType_primitive (p : IcebergPrimitive) (T : LogicalType) :
    typeToLogicalType castUInt8 p.text = .ok T ↔ (p ≠ .time ∧ p ≠ .uuid) ∧ .simple p.logical = T := by
  have hok : ∀ {id : LogicalTypeId}, primitiveType p.text = some id → id = p.logical →
      p ≠ .time ∧ p ≠ .uuid →
        (typeToLogicalType castUInt8 p.text = .ok T ↔
          (p ≠ .time ∧ p ≠ .uuid) ∧ .simple p.logical = T) := by
    intro id hid hlogical hp
    have hrun : typeToLogicalType castUInt8 p.text = .ok (.simple id) := by
      rw [typeToLogicalType, typeToLogicalTypeFuel, String.ofList_toList, hid]
    rw [hrun, hlogical, Except.ok.injEq]
    exact (and_iff_right hp).symm
  cases p with
  | time => exact iff_of_false (not_ok_of_unknown (by decide) (by decide) T) fun h => h.1.1 rfl
  | uuid => exact iff_of_false (not_ok_of_unknown (by decide) (by decide) T) fun h => h.1.2 rfl
  | boolean | int | long | float | double | date | timestamp | timestamptz | string | binary =>
    exact hok rfl rfl (by decide)

theorem typeToLogicalType_fixed (n : ℕ) (T : LogicalType) :
    typeToLogicalType castUInt8 (IcebergType.fixedText n) ≠ .ok T := by
  have hlist : (IcebergType.fixedText n).toList =
      "fixed[".toList ++ (Nat.toDigits 10 n ++ [']']) := by
    simp [IcebergType.fixedText]
  have hprim : primitiveType (IcebergType.fixedText n) = none := by
    rw [← String.ofList_toList (s := IcebergType.fixedText n)]
    exact primitiveType_of_mem (c := '[') (by decide) (by rw [hlist]; simp)
  refine not_ok_of_unknown hprim (fun keyword hkey hpre => ?_) T
  rw [hlist] at hpre
  have hall : ∀ keyword ∈ keywords, ¬ keyword <+: "fixed[".toList ∧ ¬ "fixed[".toList <+: keyword := by
    decide
  rcases List.prefix_or_prefix_of_prefix hpre (List.prefix_append _ _) with h | h
  · exact (hall keyword hkey).1 h
  · exact (hall keyword hkey).2 h

theorem typeToLogicalType_decimal {blank : String} (hblank : ')' ∉ blank.toList)
    {precision scale : ℕ} (h : scale ≤ precision ∧ precision ≤ 38)
    (hprecision : castUInt8 (toString precision) = some ⟨precision, by omega⟩)
    (hscale : castUInt8 (blank ++ toString scale) = some ⟨scale, by omega⟩) :
    typeToLogicalType castUInt8 (IcebergType.decimalText blank precision scale) =
      .ok (.decimal precision scale) := by
  have hlist : (IcebergType.decimalText blank precision scale).toList = "decimal(".toList ++
      (Nat.toDigits 10 precision ++ ',' :: (blank.toList ++ Nat.toDigits 10 scale) ++ ')' :: []) := by
    simp [IcebergType.decimalText]
  have hparen : ')' ∉ Nat.toDigits 10 precision ++ ',' :: (blank.toList ++ Nat.toDigits 10 scale) := by
    simp only [List.mem_append, List.mem_cons, not_or]
    exact ⟨notMem_toDigits (by decide) _, by decide, hblank, notMem_toDigits (by decide) _⟩
  have hprecision' : castUInt8 (String.ofList (Nat.toDigits 10 precision)) =
      some ⟨precision, by omega⟩ := by
    rw [← Nat.toString_eq_ofList_toDigits, hprecision]
  have hscale' : castUInt8 (String.ofList (blank.toList ++ Nat.toDigits 10 scale)) =
      some ⟨scale, by omega⟩ := by
    rw [String.ofList_append, String.ofList_toList, ← Nat.toString_eq_ofList_toDigits, hscale]
  rw [typeToLogicalType, hlist, typeToLogicalTypeFuel_decimal castUInt8 _ hparen,
    decimalType_comma castUInt8 (notMem_toDigits (by decide) _), castOperation, hprecision',
    castOperation, hscale']
  have hinto : ∀ {n : ℕ}, n ≤ 38 → toUInt8 (n : ℤ) = n := by
    intro n hn
    rw [toUInt8]
    omega
  change makeDecimal precision scale = _
  rw [makeDecimal, hinto h.2, hinto (h.1.trans h.2), if_pos h.2]

end Types

/-! ### Columns in the catalog -/

section Columns

variable {ctx : CatalogContext}
  (hnumeral : ∀ n (hn : n < 256), ctx.castUInt8 (toString n) = some ⟨n, hn⟩)
  (hblank : ∀ n (hn : n < 256), ctx.castUInt8 (" " ++ toString n) = some ⟨n, hn⟩)

include hnumeral hblank

/-- The text of a type is decoded to the type if the catalog knows it, and refused otherwise. -/
theorem typeToLogicalType_iff {type : IcebergType} {s : String} (h : type.Encodes (.str s))
    (T : LogicalType) : typeToLogicalType ctx.castUInt8 s = .ok T ↔
      type.inCatalog = true ∧ type.logical = T := by
  cases type with
  | primitive p =>
    rw [IcebergType.Encodes] at h
    cases h
    rw [typeToLogicalType_primitive, IcebergType.inCatalog, IcebergType.logical, decide_eq_true_eq]
  | fixed n =>
    rw [IcebergType.Encodes] at h
    cases h
    exact iff_of_false (typeToLogicalType_fixed n T) fun h => nomatch h.1
  | decimal precision scale valid =>
    rw [IcebergType.Encodes] at h
    have hrun : typeToLogicalType ctx.castUInt8 s = .ok (.decimal precision scale) := by
      rcases h with h | h
      · cases h
        exact typeToLogicalType_decimal (by decide) valid (hnumeral _ _)
          (by rw [String.empty_append]; exact hnumeral _ _)
      · cases h
        exact typeToLogicalType_decimal (by decide) valid (hnumeral _ _) (hblank _ _)
    rw [hrun, IcebergType.logical, Except.ok.injEq]
    exact (and_iff_right rfl).symm
  | list element =>
    rw [IcebergType.Encodes] at h
    obtain ⟨_, _, h, -⟩ := h
    cases h
  | map key value =>
    rw [IcebergType.Encodes] at h
    obtain ⟨_, _, _, h, -⟩ := h
    cases h
  | struct fields =>
    rw [IcebergType.Encodes] at h
    obtain ⟨_, _, h, -⟩ := h
    cases h

omit hnumeral hblank in
theorem ne_decimal_of_encodes {type : IcebergType} {s : String} (h : type.Encodes (.str s)) :
    s ≠ "decimal" := by
  rintro rfl
  cases type with
  | primitive p =>
    rw [IcebergType.Encodes] at h
    cases p <;> exact absurd (Json.str.inj h) (by decide)
  | fixed n =>
    rw [IcebergType.Encodes] at h
    have hlist := congrArg String.toList (Json.str.inj h)
    simp [IcebergType.fixedText] at hlist
  | decimal precision scale valid =>
    rw [IcebergType.Encodes] at h
    rcases h with h | h
    all_goals
      have hlist := congrArg String.toList (Json.str.inj h)
      simp [IcebergType.decimalText] at hlist
  | list element =>
    rw [IcebergType.Encodes] at h
    obtain ⟨_, _, h, -⟩ := h
    cases h
  | map key value =>
    rw [IcebergType.Encodes] at h
    obtain ⟨_, _, _, h, -⟩ := h
    cases h
  | struct fields =>
    rw [IcebergType.Encodes] at h
    obtain ⟨_, _, h, -⟩ := h
    cases h

omit hnumeral hblank in
/-- The types that are no texts are those the catalog does not know. -/
theorem inCatalog_of_encodes {type : IcebergType} {v : Json} (h : type.Encodes v)
    (hcatalog : type.inCatalog = true) : ∃ s, v = .str s := by
  cases type with
  | primitive p =>
    rw [IcebergType.Encodes] at h
    exact ⟨_, h⟩
  | decimal precision scale valid =>
    rw [IcebergType.Encodes] at h
    rcases h with h | h
    · exact ⟨_, h⟩
    · exact ⟨_, h⟩
  | fixed | list | map | struct => cases hcatalog

/-- The definition of a column is made when the catalog knows its type, with the name and the type
that a scan finds. -/
theorem column_iff {field : IcebergField} {v : Json} (h : field.Encodes v)
    (x : String × LogicalType) :
    (∃ col, parseColumnDefinition v = .ok col ∧ createColumnDefinition ctx col = .ok x) ↔
      field.type.inCatalog = true ∧ (cString field.name, field.type.logical) = x := by
  obtain ⟨members, t, rfl, hid, hname, htype, ht, -⟩ := h
  by_cases hstr : ∃ s, t = .str s
  · obtain ⟨s, rfl⟩ := hstr
    have hparse : parseColumnDefinition (.obj members) = .ok
        { name := cString field.name, typeText := s, precision := minusOne, scale := minusOne,
          position := idx ((Json.int field.id).getUInt + minusOne) } := by
      unfold parseColumnDefinition
      rw [tryGetStr_of_member hname, tryGetStr_of_member htype,
        cString_of_notMem (nulFree_of_encodes ht)]
      refine bind_eq_ok.2 ⟨_, rfl, bind_eq_ok.2 ⟨_, rfl, ?_⟩⟩
      dsimp only
      rw [if_neg (ne_decimal_of_encodes ht)]
      refine bind_eq_ok.2 ⟨_, rfl, ?_⟩
      rw [if_neg (ne_decimal_of_encodes ht), tryGetNumFromObject, objGet, hid]
      rfl
    have hcreate : ∀ col : IRCAPIColumnDefinition, col.name = cString field.name →
        col.typeText = s → (createColumnDefinition ctx col = .ok x ↔
          field.type.inCatalog = true ∧ (cString field.name, field.type.logical) = x) := by
      rintro col hcol rfl
      rw [createColumnDefinition, bind_eq_ok, hcol]
      constructor
      · rintro ⟨T, hT, hx⟩
        obtain ⟨hcatalog, rfl⟩ := (typeToLogicalType_iff hnumeral hblank ht T).1 hT
        exact ⟨hcatalog, Except.ok.inj hx⟩
      · rintro ⟨hcatalog, rfl⟩
        exact ⟨_, (typeToLogicalType_iff hnumeral hblank ht _).2 ⟨hcatalog, rfl⟩, rfl⟩
    rw [hparse]
    constructor
    · rintro ⟨col, hcol, hx⟩
      rw [← Except.ok.inj hcol] at hx
      exact (hcreate _ rfl rfl).1 hx
    · intro hx
      exact ⟨_, rfl, (hcreate _ rfl rfl).2 hx⟩
  · refine iff_of_false ?_ fun hx => hstr (inCatalog_of_encodes ht hx.1)
    rintro ⟨col, hcol, -⟩
    unfold parseColumnDefinition at hcol
    obtain ⟨_, -, hcol⟩ := bind_eq_ok.1 hcol
    obtain ⟨typeText, htext, -⟩ := bind_eq_ok.1 hcol
    rw [tryGetStrFromObject, objGet, htype] at htext
    cases t with
    | str s => exact hstr ⟨s, rfl⟩
    | null | bool | int | real | arr | obj => cases htext

/-- The definitions of all columns are made when the catalog knows all types. -/
theorem columns_iff {fields : List IcebergField} {vs : List Json}
    (h : List.Forall₂ IcebergField.Encodes fields vs) (xs : List (String × LogicalType)) :
    (∃ cols, vs.mapM parseColumnDefinition = .ok cols ∧
      cols.mapM (createColumnDefinition ctx) = .ok xs) ↔
      (∀ field ∈ fields, field.type.inCatalog = true) ∧
        fields.map (fun field => (cString field.name, field.type.logical)) = xs := by
  induction h generalizing xs with
  | nil =>
    constructor
    · rintro ⟨cols, hcols, hxs⟩
      rw [List.mapM_nil] at hcols
      cases hcols
      rw [List.mapM_nil] at hxs
      cases hxs
      exact ⟨List.forall_mem_nil _, rfl⟩
    · rintro ⟨-, rfl⟩
      exact ⟨[], List.mapM_nil, List.mapM_nil⟩
  | @cons field v fields vs hfield _ ih =>
    rw [List.forall_mem_cons, List.map_cons]
    constructor
    · rintro ⟨cols, hcols, hxs⟩
      rw [mapM_eq_ok] at hcols hxs
      obtain ⟨col, cols', hcol, hcols', rfl⟩ := List.forall₂_cons_left_iff.1 hcols
      obtain ⟨x, xs', hx, hxs', rfl⟩ := List.forall₂_cons_left_iff.1 hxs
      obtain ⟨hcatalog, rfl⟩ := (column_iff hnumeral hblank hfield x).1 ⟨col, hcol, hx⟩
      obtain ⟨hall, rfl⟩ := (ih xs').1 ⟨cols', mapM_eq_ok.2 hcols', mapM_eq_ok.2 hxs'⟩
      exact ⟨⟨hcatalog, hall⟩, rfl⟩
    · rintro ⟨⟨hcatalog, hall⟩, rfl⟩
      obtain ⟨col, hcol, hx⟩ := (column_iff hnumeral hblank hfield _).2 ⟨hcatalog, rfl⟩
      obtain ⟨cols, hcols, hxs⟩ := (ih _).2 ⟨hall, rfl⟩
      rw [mapM_eq_ok] at hcols hxs
      exact ⟨col :: cols, mapM_eq_ok.2 (.cons hcol hcols), mapM_eq_ok.2 (.cons hx hxs)⟩

end Columns

/-! ### The two paths -/

/-- The metadata of a table: no other schema has the id of the current one. -/
structure TableMetadata where
  schema : IcebergSchema
  members : List (String × Json)
  version : ℤ
  current : Json
  before : List Json
  after : List Json
  formatVersion : member "format-version" members = some (.int version)
  currentSchemaId : member "current-schema-id" members = some (.int schema.schemaId)
  schemas : member "schemas" members = some (.arr (before ++ current :: after))
  encodes : schema.Encodes current
  distinct : ∀ v ∈ before ++ after, ∃ id, tryGetNumFromObject (some v) "schema-id" = .ok id ∧
    id ≠ (Json.int schema.schemaId).getUInt

/-- The columns of a table entry of the catalog, from the answer of the server. -/
def catalogColumns (ctx : CatalogContext) (catalog : IRCatalogConfig) (schema table : String)
    (metadataRoot : Json) : Except Error (List (String × LogicalType)) := do
  let table ← populateTableMetadata (createTable catalog schema table) (some metadataRoot)
  createColumns ctx table

/-- The columns that a scan finds in the metadata. -/
def scanColumns (metadata : Json) : Except Error (List (String × LogicalType)) := do
  let info ← IcebergSnapshot.getParseInfo metadata
  let columns ← parseSchema info.schemaId info.schemas
  return columns.map fun column => (column.name, column.type)

namespace TableMetadata

variable (m : TableMetadata)

/-- The id of the current schema, as an `idx_t`. -/
def schemaId : ℕ := (Json.int m.schema.schemaId).getUInt

/-- The name and the type of a column. -/
def columns : List (String × LogicalType) :=
  m.schema.fields.map fun field => (cString field.name, field.type.logical)

theorem parseSchema_before {schemas : List Json}
    (h : ∀ v ∈ schemas, ∃ id, tryGetNumFromObject (some v) "schema-id" = .ok id ∧ id ≠ m.schemaId)
    (rest : List Json) : parseSchema m.schemaId (schemas ++ rest) = parseSchema m.schemaId rest := by
  induction schemas with
  | nil => rfl
  | cons v vs ih =>
    obtain ⟨⟨id, hid, hne⟩, hvs⟩ := List.forall_mem_cons.1 h
    rw [List.cons_append, parseSchema, hid, ← ih hvs]
    exact if_neg hne

theorem currentColumns_before {schemas : List Json}
    (h : ∀ v ∈ schemas, ∃ id, tryGetNumFromObject (some v) "schema-id" = .ok id ∧ id ≠ m.schemaId)
    (rest : List Json) :
    currentColumns m.schemaId (schemas ++ rest) = currentColumns m.schemaId rest := by
  induction schemas with
  | nil => rfl
  | cons v vs ih =>
    obtain ⟨⟨id, hid, hne⟩, hvs⟩ := List.forall_mem_cons.1 h
    rw [List.cons_append, currentColumns, hid, ← ih hvs]
    exact if_neg hne

/-- A scan finds the columns of the current schema. -/
theorem scanColumns_eq : scanColumns (.obj m.members) = .ok m.columns := by
  have hinfo : IcebergSnapshot.getParseInfo (.obj m.members) =
      .ok { snapshots := member "snapshots" m.members,
            icebergVersion := (Json.int m.version).getUInt, schemaId := m.schemaId,
            schemas := m.before ++ m.current :: m.after } := by
    unfold IcebergSnapshot.getParseInfo
    simp only [tryGetNumFromObject, objGet, m.formatVersion, m.currentSchemaId, m.schemas, elems]
    rfl
  have hbefore := m.parseSchema_before
    (fun v hv => m.distinct v (List.mem_append_left _ hv)) (m.current :: m.after)
  have hcurrent : parseSchema m.schemaId (m.current :: m.after) =
      .ok (m.schema.fields.map IcebergField.column) := by
    rw [parseSchema, IcebergSchema.tryGetSchemaId m.encodes,
      ← IcebergSchema.parseSchemaFromJson_of_encodes m.encodes]
    exact if_pos rfl
  rw [scanColumns, hinfo]
  change (parseSchema m.schemaId (m.before ++ m.current :: m.after) >>= fun columns => _) = _
  rw [hbefore, hcurrent]
  change Except.ok ((m.schema.fields.map IcebergField.column).map _) = _
  rw [List.map_map]
  rfl

/-- The catalog makes the same columns, if it knows their types. -/
theorem catalogColumns_iff {ctx : CatalogContext}
    (hnumeral : ∀ n (hn : n < 256), ctx.castUInt8 (toString n) = some ⟨n, hn⟩)
    (hblank : ∀ n (hn : n < 256), ctx.castUInt8 (" " ++ toString n) = some ⟨n, hn⟩)
    (catalog : IRCatalogConfig) (schema table : String) {root : List (String × Json)}
    {location : String} (hlocation : member "metadata-location" root = some (.str location))
    (hmetadata : member "metadata" root = some (.obj m.members)) (cols : List (String × LogicalType)) :
    catalogColumns ctx catalog schema table (.obj root) = .ok cols ↔
      (∀ field ∈ m.schema.fields, field.type.inCatalog = true) ∧ m.columns = cols := by
  obtain ⟨members, vs, hcurrent, -, -, hfields, hvs⟩ := m.encodes
  have hid : tryGetNumFromObject (some m.current) "schema-id" = .ok m.schemaId :=
    IcebergSchema.tryGetSchemaId m.encodes
  have hafter : currentColumns m.schemaId m.after = .ok (false, []) := by
    have hskip := m.currentColumns_before (fun v hv => m.distinct v (List.mem_append_right _ hv)) []
    rwa [List.append_nil] at hskip
  have hfound : currentColumns m.schemaId (m.before ++ m.current :: m.after) = (do
      let columns ← vs.mapM parseColumnDefinition
      return (true, columns)) := by
    rw [m.currentColumns_before (fun v hv => m.distinct v (List.mem_append_left _ hv)),
      currentColumns, hid, hafter, hcurrent, objGet, hfields, elems]
    refine (if_pos rfl).trans ?_
    cases vs.mapM parseColumnDefinition with
    | error e => rfl
    | ok columns =>
      change Except.ok (true, columns ++ []) = Except.ok (true, columns)
      rw [List.append_nil]
  have hpopulate : populateTableMetadata (createTable catalog schema table) (some (.obj root)) = (do
      let columns ← vs.mapM parseColumnDefinition
      return { createTable catalog schema table with
        storageLocation := cString location, columns }) := by
    have hcurrentId : tryGetNumFromObject (some (.obj m.members)) "current-schema-id" =
        .ok m.schemaId := by
      rw [tryGetNumFromObject, objGet, m.currentSchemaId]
      rfl
    unfold populateTableMetadata
    rw [tryGetStr_of_member hlocation]
    simp only [objGet, hmetadata, m.schemas, elems, hcurrentId]
    change (currentColumns m.schemaId (m.before ++ m.current :: m.after) >>= fun _ => _) = _
    rw [hfound]
    cases vs.mapM parseColumnDefinition <;> rfl
  rw [catalogColumns, hpopulate, columns, ← columns_iff hnumeral hblank hvs]
  constructor
  · intro h
    obtain ⟨t, ht, hcols⟩ := bind_eq_ok.1 h
    obtain ⟨columns, hcolumns, htable⟩ := bind_eq_ok.1 ht
    cases htable
    exact ⟨columns, hcolumns, hcols⟩
  · rintro ⟨columns, hcolumns, hcols⟩
    exact bind_eq_ok.2 ⟨_, bind_eq_ok.2 ⟨columns, hcolumns, rfl⟩, hcols⟩

end TableMetadata

/-- **The catalog and the scan** agree on the columns of a table exactly when each type is a decimal or
a primitive one other than `time` and `uuid`: then both give the columns of the current schema, and
otherwise only the scan does. -/
theorem columns_agree_iff {ctx : CatalogContext}
    (hnumeral : ∀ n (hn : n < 256), ctx.castUInt8 (toString n) = some ⟨n, hn⟩)
    (hblank : ∀ n (hn : n < 256), ctx.castUInt8 (" " ++ toString n) = some ⟨n, hn⟩)
    (m : TableMetadata) (catalog : IRCatalogConfig) (schema table : String)
    {root : List (String × Json)} {location : String}
    (hlocation : member "metadata-location" root = some (.str location))
    (hmetadata : member "metadata" root = some (.obj m.members)) :
    (∀ cols, catalogColumns ctx catalog schema table (.obj root) = .ok cols ↔
      scanColumns (.obj m.members) = .ok cols) ↔
    ∀ field ∈ m.schema.fields, field.type.inCatalog = true := by
  have hcatalog := m.catalogColumns_iff hnumeral hblank catalog schema table hlocation hmetadata
  rw [m.scanColumns_eq]
  constructor
  · intro h
    exact ((hcatalog m.columns).1 ((h m.columns).2 rfl)).1
  · intro h cols
    rw [hcatalog, Except.ok.injEq]
    exact and_iff_right h

/-! ### Tables with one column -/

/-- A cast that reads numerals, with blanks before them. -/
def castNumeral (s : String) : Option (Fin 256) :=
  readUInt8 (String.ofList (s.toList.dropWhile isSpace))

theorem castNumeral_blanks (blanks : String) (hblanks : ∀ c ∈ blanks.toList, isSpace c = true)
    (n : ℕ) (hn : n < 256) : castNumeral (blanks ++ toString n) = some ⟨n, hn⟩ := by
  have hdigits : (Nat.toDigits 10 n).dropWhile isSpace = Nat.toDigits 10 n := by
    cases hnum : Nat.toDigits 10 n with
    | nil => rfl
    | cons c cs =>
      have hc : c.isDigit = true := isDigit_toDigits (n := n) (by rw [hnum]; exact List.mem_cons_self)
      have hspace : isSpace c = false := by
        by_contra h
        simp only [isSpace, Bool.not_eq_false, Bool.or_eq_true, decide_eq_true_eq] at h
        rcases h with ((((rfl | rfl) | rfl) | rfl) | rfl) | rfl <;> revert hc <;> decide
      rw [List.dropWhile_cons_of_neg (by simp [hspace])]
  have hlist : (blanks ++ toString n).toList = blanks.toList ++ Nat.toDigits 10 n := by
    rw [String.toList_append, Nat.toString_eq_ofList_toDigits, String.toList_ofList]
  rw [castNumeral, hlist, List.dropWhile_append_of_pos hblanks, hdigits,
    ← Nat.toString_eq_ofList_toDigits, readUInt8_numeral hn]

/-- What the catalog uses, with this cast. -/
def numerals : CatalogContext where
  urlEncode := id
  yyjsonRead _ := none
  castUInt8 := castNumeral

/-- The schema with a column of this type, in JSON. -/
def oneColumnJson (p : IcebergPrimitive) : Json :=
  .obj [("type", .str "struct"), ("schema-id", .int 0), ("fields", .arr [.obj [("id", .int 1),
    ("name", .str "c"), ("required", .bool false), ("type", .str p.text)]])]

theorem first_inRange : -(2 ^ 31) ≤ (1 : ℤ) ∧ (1 : ℤ) < 2 ^ 31 := by omega

/-- The metadata of a table with a column of this type. -/
def oneColumn (p : IcebergPrimitive) : TableMetadata where
  schema := ⟨0, [⟨1, "c", .primitive p, false, first_inRange⟩]⟩
  members := [("format-version", .int 2), ("current-schema-id", .int 0),
    ("schemas", .arr [oneColumnJson p])]
  version := 2
  current := oneColumnJson p
  before := []
  after := []
  formatVersion := rfl
  currentSchemaId := rfl
  schemas := rfl
  encodes := by
    refine ⟨_, _, rfl, rfl, rfl, rfl, .cons ⟨_, _, rfl, rfl, rfl, rfl, ?_, rfl⟩ .nil⟩
    rw [IcebergType.Encodes]
  distinct := List.forall_mem_nil _

/-- The answer of the server for such a table. -/
def oneColumnRoot (p : IcebergPrimitive) : List (String × Json) :=
  [("metadata-location", .str "s3://b/t/metadata/v1.json"), ("metadata", .obj (oneColumn p).members)]

theorem numerals_castUInt8 : numerals.castUInt8 = castNumeral := rfl

theorem numerals_numeral (n : ℕ) (hn : n < 256) :
    numerals.castUInt8 (toString n) = some ⟨n, hn⟩ := by
  rw [numerals_castUInt8, ← castNumeral_blanks "" (by simp) n hn, String.empty_append]

theorem numerals_blank (n : ℕ) (hn : n < 256) :
    numerals.castUInt8 (" " ++ toString n) = some ⟨n, hn⟩ := by
  rw [numerals_castUInt8, ← castNumeral_blanks " " (by simp [isSpace]) n hn]

theorem columns_agree_long :
    catalogColumns numerals IRCatalogConfig.polaris "s" "t" (.obj (oneColumnRoot .long)) =
      .ok [("c", .simple .bigint)] := by
  have hlocation : member "metadata-location" (oneColumnRoot .long) =
      some (.str "s3://b/t/metadata/v1.json") := rfl
  have hmetadata : member "metadata" (oneColumnRoot .long) =
      some (.obj (oneColumn .long).members) := rfl
  have hknown : ∀ field ∈ (oneColumn .long).schema.fields, field.type.inCatalog = true :=
    List.forall_mem_singleton.2 (by decide)
  have hscan : scanColumns (.obj (oneColumn .long).members) = .ok [("c", .simple .bigint)] := by
    decide +kernel
  have hagree := (columns_agree_iff numerals_numeral numerals_blank (oneColumn .long)
    IRCatalogConfig.polaris "s" "t" hlocation hmetadata).2 hknown
  exact (hagree _).2 hscan

/-- The catalog does not know the type `time`. -/
theorem not_columns_agree_time : ¬ ∀ cols,
    catalogColumns numerals IRCatalogConfig.polaris "s" "t" (.obj (oneColumnRoot .time)) = .ok cols ↔
      scanColumns (.obj (oneColumn .time).members) = .ok cols := by
  intro h
  have hscan : scanColumns (.obj (oneColumn .time).members) = .ok [("c", .simple .time)] := by
    decide +kernel
  have hcatalog := (h _).2 hscan
  revert hcatalog
  decide +kernel

end DuckIceberg
