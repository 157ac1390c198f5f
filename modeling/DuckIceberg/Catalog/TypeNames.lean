import DuckIceberg.Catalog.Columns

/-!
# Names of types

`LogicalToIcebergType` names a column type of DuckDB as a schema of Iceberg does.  Such a name is
read by `TypeToLogicalType`, when the server lists it for a table, and by `ParseTypeValue`, when it
stands in the metadata.

* `typeToLogicalType_named`, `parseTypeValue_named`: what the two read of a name;
* `named_of_inCatalog`: what the catalog reads can be named again;
* `type_names_round_trip`: so naming and reading undo each other, but for signs.
-/

namespace DuckIceberg

open Strings Json ICUtils

/-- The types that a column of DuckDB may have: those a schema can say, unsigned ones, and others. -/
inductive ColumnType
  | logical (type : LogicalType)
  | utinyint
  | usmallint
  | uinteger
  | ubigint
  | other

namespace ColumnType

/-- DuckDB has no decimals of another kind. -/
def Valid : ColumnType → Prop
  | logical (.decimal width scale) => scale ≤ width ∧ width ≤ 38
  | _ => True

/-- The type with a sign. -/
def signed : ColumnType → Option LogicalType
  | logical type => some type
  | utinyint => some (.simple .tinyint)
  | usmallint => some (.simple .smallint)
  | uinteger => some (.simple .integer)
  | ubigint => some (.simple .bigint)
  | other => none

end ColumnType

/-- `LogicalToIcebergType`; `toText` is `LogicalType::ToString`. -/
def ICUtils.logicalToIcebergType (toText : ColumnType → String) (input : ColumnType) :
    Except Error String :=
  match input with
  | .logical (.simple .tinyint) | .utinyint => .ok "tinyint"
  | .logical (.simple .smallint) | .usmallint => .ok "smallint"
  | .logical (.simple .integer) | .uinteger => .ok "int"
  | .logical (.simple .bigint) | .ubigint => .ok "long"
  | .logical (.simple .varchar) => .ok "string"
  | .logical (.simple .double) => .ok "double"
  | .logical (.simple .float) => .ok "float"
  | .logical (.simple .boolean) => .ok "boolean"
  | .logical (.simple .timestamp) => .ok "timestamp"
  | .logical (.simple .timestampTz) => .ok "timestamptz"
  | .logical (.simple .blob) => .ok "binary"
  | .logical (.simple .date) => .ok "date"
  | .logical (.decimal precision scale) =>
    .ok ("decimal(" ++ toString precision ++ ", " ++ toString scale ++ ")")
  | input => .error ⟨.invalidInput, "Unsupported type: " ++ toText input⟩

section Names

variable {toText : ColumnType → String}

/-- The name of a decimal. -/
theorem logicalToIcebergType_decimal (precision scale : ℕ) :
    logicalToIcebergType toText (.logical (.decimal precision scale)) =
      .ok (IcebergType.decimalText " " precision scale) := by
  have hcomma : (", " : String) = "," ++ " " := rfl
  simp only [logicalToIcebergType, IcebergType.decimalText, hcomma, String.append_assoc]

theorem logicalToIcebergType_primitive {p : IcebergPrimitive} (hp : p ≠ .time ∧ p ≠ .uuid) :
    logicalToIcebergType toText (.logical (.simple p.logical)) = .ok p.text := by
  cases p with
  | time => exact absurd rfl hp.1
  | uuid => exact absurd rfl hp.2
  | _ => rfl

/-- An unsigned type has the name of the signed one. -/
theorem named_signed {type : ColumnType} {text : String}
    (h : logicalToIcebergType toText type = .ok text) :
    ∃ T, type.signed = some T ∧ logicalToIcebergType toText (.logical T) = .ok text := by
  cases type with
  | logical T => exact ⟨T, rfl, h⟩
  | other => cases h
  | utinyint | usmallint | uinteger | ubigint => exact ⟨_, rfl, h⟩

/-- The types without parameters are those of Iceberg and two more. -/
theorem exists_primitive (id : LogicalTypeId) :
    (∃ p : IcebergPrimitive, p.logical = id) ∨ id = .tinyint ∨ id = .smallint := by
  cases id with
  | tinyint => exact Or.inr (Or.inl rfl)
  | smallint => exact Or.inr (Or.inr rfl)
  | boolean => exact Or.inl ⟨.boolean, rfl⟩
  | integer => exact Or.inl ⟨.int, rfl⟩
  | bigint => exact Or.inl ⟨.long, rfl⟩
  | float => exact Or.inl ⟨.float, rfl⟩
  | double => exact Or.inl ⟨.double, rfl⟩
  | date => exact Or.inl ⟨.date, rfl⟩
  | time => exact Or.inl ⟨.time, rfl⟩
  | timestamp => exact Or.inl ⟨.timestamp, rfl⟩
  | timestampTz => exact Or.inl ⟨.timestamptz, rfl⟩
  | varchar => exact Or.inl ⟨.string, rfl⟩
  | uuid => exact Or.inl ⟨.uuid, rfl⟩
  | blob => exact Or.inl ⟨.binary, rfl⟩

/-- What a name can be: a primitive type of Iceberg, a decimal, or one of two that Iceberg lacks. -/
theorem named_cases {T : LogicalType} {text : String}
    (h : logicalToIcebergType toText (.logical T) = .ok text) :
    (∃ p : IcebergPrimitive, (p ≠ .time ∧ p ≠ .uuid) ∧ T = .simple p.logical ∧ text = p.text) ∨
      (∃ precision scale, T = .decimal precision scale ∧
        text = IcebergType.decimalText " " precision scale) ∨
      T = .simple .tinyint ∧ text = "tinyint" ∨ T = .simple .smallint ∧ text = "smallint" := by
  cases T with
  | list | map | struct => cases h
  | decimal precision scale =>
    rw [logicalToIcebergType_decimal] at h
    exact Or.inr (Or.inl ⟨precision, scale, rfl, (Except.ok.inj h).symm⟩)
  | simple id =>
    rcases exists_primitive id with ⟨p, rfl⟩ | rfl | rfl
    · have hp : p ≠ .time ∧ p ≠ .uuid := by
        constructor
        · rintro rfl
          cases h
        · rintro rfl
          cases h
      rw [logicalToIcebergType_primitive hp] at h
      exact Or.inl ⟨p, hp, rfl, (Except.ok.inj h).symm⟩
    · exact Or.inr (Or.inr (Or.inl ⟨rfl, (Except.ok.inj h).symm⟩))
    · exact Or.inr (Or.inr (Or.inr ⟨rfl, (Except.ok.inj h).symm⟩))

/-! ### Reading a name -/

/-- A type of Iceberg of the same DuckDB type, without those that the catalog refuses. -/
theorem named_of_inCatalog {type : IcebergType} (h : type.inCatalog = true) :
    ∃ text, logicalToIcebergType toText (.logical type.logical) = .ok text ∧
      type.Encodes (.str text) := by
  cases type with
  | primitive p =>
    have hp : p ≠ .time ∧ p ≠ .uuid := by simpa [IcebergType.inCatalog] using h
    exact ⟨p.text, logicalToIcebergType_primitive hp, by rw [IcebergType.Encodes]⟩
  | decimal precision scale valid =>
    refine ⟨_, logicalToIcebergType_decimal precision scale, ?_⟩
    rw [IcebergType.Encodes]
    exact Or.inr rfl
  | fixed | list | map | struct => cases h

/-- The metadata cannot say the two small types. -/
theorem parseTypeValue_named {T : LogicalType} {text : String}
    (hvalid : ColumnType.Valid (.logical T))
    (h : logicalToIcebergType toText (.logical T) = .ok text) (T' : LogicalType) :
    parseTypeValue (.str text) = .ok T' ↔
      (T ≠ .simple .tinyint ∧ T ≠ .simple .smallint) ∧ T' = T := by
  rcases named_cases h with ⟨p, hp, rfl, rfl⟩ | ⟨precision, scale, rfl, rfl⟩ | ⟨rfl, rfl⟩ | ⟨rfl, rfl⟩
  · have hsmall : (LogicalType.simple p.logical) ≠ .simple .tinyint ∧
        (LogicalType.simple p.logical) ≠ .simple .smallint := by cases p <;> decide
    have hread : parseTypeValue (.str p.text) = .ok (.simple p.logical) := by cases p <;> rfl
    rw [hread, Except.ok.injEq]
    exact ⟨fun h => ⟨hsmall, h.symm⟩, fun h => h.2.symm⟩
  · have hdecimal : scale ≤ precision ∧ precision ≤ 38 := hvalid
    have hencodes : IcebergType.Encodes (.decimal precision scale hdecimal)
        (.str (IcebergType.decimalText " " precision scale)) := by
      rw [IcebergType.Encodes]
      exact Or.inr rfl
    have hread := parseTypeValue_of_encodes _ _ hencodes
    rw [IcebergType.logical] at hread
    rw [hread, Except.ok.injEq]
    exact ⟨fun h => ⟨⟨nofun, nofun⟩, h.symm⟩, fun h => h.2.symm⟩
  · exact iff_of_false (fun h => nomatch h) fun h => h.1.1 rfl
  · exact iff_of_false (fun h => nomatch h) fun h => h.1.2 rfl

variable {castUInt8 : String → Option (Fin 256)}

/-- The catalog reads a name as the type with a sign. -/
theorem typeToLogicalType_named
    (hnumeral : ∀ n (hn : n < 256), castUInt8 (toString n) = some ⟨n, hn⟩)
    (hblank : ∀ n (hn : n < 256), castUInt8 (" " ++ toString n) = some ⟨n, hn⟩)
    {T : LogicalType} {text : String} (hvalid : ColumnType.Valid (.logical T))
    (h : logicalToIcebergType toText (.logical T) = .ok text) :
    typeToLogicalType castUInt8 text = .ok T := by
  rcases named_cases h with ⟨p, hp, rfl, rfl⟩ | ⟨precision, scale, rfl, rfl⟩ | ⟨rfl, rfl⟩ | ⟨rfl, rfl⟩
  · exact (typeToLogicalType_primitive p _).2 ⟨hp, rfl⟩
  · have hdecimal : scale ≤ precision ∧ precision ≤ 38 := hvalid
    exact typeToLogicalType_decimal (by decide) hdecimal (hnumeral _ _) (hblank _ _)
  · rfl
  · rfl

end Names

/-- **Names of types.**  A type that has a name is read back from it: by the catalog, but for the
sign, and in the metadata alike, unless it is one of the two small types.  What the catalog reads for a
type of Iceberg has a name, and the name says that type of Iceberg. -/
theorem type_names_round_trip {ctx : CatalogContext}
    (hnumeral : ∀ n (hn : n < 256), ctx.castUInt8 (toString n) = some ⟨n, hn⟩)
    (hblank : ∀ n (hn : n < 256), ctx.castUInt8 (" " ++ toString n) = some ⟨n, hn⟩)
    (toText : ColumnType → String) :
    (∀ type text, type.Valid → logicalToIcebergType toText type = .ok text →
      ∃ T, type.signed = some T ∧ typeToLogicalType ctx.castUInt8 text = .ok T ∧
        ∀ T', parseTypeValue (.str text) = .ok T' ↔
          (T ≠ .simple .tinyint ∧ T ≠ .simple .smallint) ∧ T' = T) ∧
      ∀ (type : IcebergType) s T, type.Encodes (.str s) →
        typeToLogicalType ctx.castUInt8 s = .ok T →
          ∃ text, logicalToIcebergType toText (.logical T) = .ok text ∧ type.Encodes (.str text) := by
  constructor
  · intro type text hvalid hnamed
    obtain ⟨T, hsigned, hT⟩ := named_signed hnamed
    have hvalidT : ColumnType.Valid (.logical T) := by
      cases type with
      | logical type =>
        cases hsigned
        exact hvalid
      | other => cases hsigned
      | utinyint | usmallint | uinteger | ubigint =>
        cases hsigned
        trivial
    exact ⟨T, hsigned, typeToLogicalType_named hnumeral hblank hvalidT hT,
      parseTypeValue_named hvalidT hT⟩
  · intro type s T hencodes hread
    obtain ⟨hcatalog, rfl⟩ := (typeToLogicalType_iff hnumeral hblank hencodes T).1 hread
    exact named_of_inCatalog hcatalog

theorem valid_ten_two : 2 ≤ 10 ∧ 10 ≤ 38 := by decide

theorem type_names_round_trip_two :
    (∃ T, ColumnType.uinteger.signed = some T ∧
        typeToLogicalType numerals.castUInt8 "int" = .ok T ∧
        ∀ T', parseTypeValue (.str "int") = .ok T' ↔
          (T ≠ .simple .tinyint ∧ T ≠ .simple .smallint) ∧ T' = T) ∧
      ∃ text, logicalToIcebergType (fun _ => "UNION") (.logical (.decimal 10 2)) = .ok text ∧
        (IcebergType.decimal 10 2 valid_ten_two).Encodes (.str text) := by
  obtain ⟨hnames, hread⟩ :=
    type_names_round_trip numerals_numeral numerals_blank fun _ => "UNION"
  refine ⟨hnames .uinteger "int" trivial rfl, hread _ (IcebergType.decimalText "" 10 2) _ ?_ ?_⟩
  · rw [IcebergType.Encodes]
    exact Or.inl rfl
  · exact typeToLogicalType_decimal (by decide) valid_ten_two (numerals_numeral _ _)
      (by rw [String.empty_append]; exact numerals_numeral _ _)

end DuckIceberg
