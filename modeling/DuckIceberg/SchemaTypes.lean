import DuckIceberg.Schema
import Mathlib.Data.List.TakeWhile

/-!
# The types of a schema

The types of Iceberg, as trees, with the DuckDB type of each and the JSON values that encode it.
The scan-side parser decodes all of them.

* `parseTypeValue_of_encodes`: the induction over the type;
* `parseSchema_of_encodes`: the columns of the schema that is asked for.
-/

namespace DuckIceberg

open Strings Json IcebergUtils

/-! ### Types and their encodings -/

/-- The primitive types without parameters. -/
inductive IcebergPrimitive
  | boolean
  | int
  | long
  | float
  | double
  | date
  | time
  | timestamp
  | timestamptz
  | string
  | uuid
  | binary
  deriving DecidableEq, Repr

namespace IcebergPrimitive

/-- The name in a schema. -/
def text : IcebergPrimitive → String
  | boolean => "boolean"
  | int => "int"
  | long => "long"
  | float => "float"
  | double => "double"
  | date => "date"
  | time => "time"
  | timestamp => "timestamp"
  | timestamptz => "timestamptz"
  | string => "string"
  | uuid => "uuid"
  | binary => "binary"

/-- The DuckDB type. -/
def logical : IcebergPrimitive → LogicalTypeId
  | boolean => .boolean
  | int => .integer
  | long => .bigint
  | float => .float
  | double => .double
  | date => .date
  | time => .time
  | timestamp => .timestamp
  | timestamptz => .timestampTz
  | string => .varchar
  | uuid => .uuid
  | binary => .blob

end IcebergPrimitive

/-- A type of Iceberg. -/
inductive IcebergType
  | primitive (p : IcebergPrimitive)
  | fixed (length : ℕ)
  | decimal (precision scale : ℕ) (valid : scale ≤ precision ∧ precision ≤ 38)
  | list (element : IcebergType)
  | map (key value : IcebergType)
  | struct (fields : List (String × IcebergType))

namespace IcebergType

mutual

/-- The DuckDB type of the same shape.  The names of fields pass through C strings, so that they end at
a NUL. -/
def logical : IcebergType → LogicalType
  | primitive p => .simple p.logical
  | fixed _ => .simple .blob
  | decimal precision scale _ => .decimal precision scale
  | list element => .list element.logical
  | map key value => .map key.logical value.logical
  | struct fields => .struct (logicalFields fields)

/-- The children of the DuckDB type of a struct. -/
def logicalFields : List (String × IcebergType) → List (String × LogicalType)
  | [] => []
  | (name, type) :: fields => (cString name, type.logical) :: logicalFields fields

end

/-- The text of `fixed[n]`. -/
def fixedText (n : ℕ) : String := "fixed[" ++ toString n ++ "]"

/-- The text of a decimal type, with what stands between the comma and the scale. -/
def decimalText (blank : String) (precision scale : ℕ) : String :=
  "decimal(" ++ toString precision ++ "," ++ blank ++ toString scale ++ ")"

mutual

/-- The value encodes this type.  An object may have other members, in any order. -/
def Encodes : IcebergType → Json → Prop
  | primitive p, v => v = .str p.text
  | fixed n, v => v = .str (fixedText n)
  | decimal precision scale _, v =>
    v = .str (decimalText "" precision scale) ∨ v = .str (decimalText " " precision scale)
  | list element, v => ∃ members e, v = .obj members ∧ member "type" members = some (.str "list") ∧
      member "element" members = some e ∧ Encodes element e
  | map key value, v => ∃ members k e, v = .obj members ∧
      member "type" members = some (.str "map") ∧ member "key" members = some k ∧ Encodes key k ∧
      member "value" members = some e ∧ Encodes value e
  | struct fields, v => ∃ members vs, v = .obj members ∧
      member "type" members = some (.str "struct") ∧ member "fields" members = some (.arr vs) ∧
      EncodesFields fields vs

/-- The values encode these fields of a struct. -/
def EncodesFields : List (String × IcebergType) → List Json → Prop
  | [], vs => vs = []
  | (name, type) :: fields, vs => ∃ members t vs', vs = .obj members :: vs' ∧
      member "name" members = some (.str name) ∧ member "type" members = some t ∧
      Encodes type t ∧ EncodesFields fields vs'

end

end IcebergType

/-! ### Texts of types -/

/-- A text without a NUL is read as it is. -/
theorem cString_of_notMem {s : String} (h : '\x00' ∉ s.toList) : cString s = s := by
  have htake : s.toList.takeWhile (· ≠ '\x00') = s.toList := by
    rw [List.takeWhile_eq_self_iff]
    intro c hc
    have hne : c ≠ '\x00' := fun heq => h (heq ▸ hc)
    simpa using hne
  rw [cString, htake, String.ofList_toList]

theorem tryGetStr_of_member {members : List (String × Json)} {key s : String}
    (h : member key members = some (.str s)) :
    tryGetStrFromObject (some (.obj members)) key = .ok (cString s) := by
  rw [tryGetStrFromObject, objGet, h]

theorem parsePrimitive_text (p : IcebergPrimitive) :
    parsePrimitive p.text = .ok (.simple p.logical) := by
  cases p <;> rfl

/-- A text that begins with `fixed`. -/
theorem parsePrimitive_of_fixed {text : String} (h : "fixed".toList <+: text.toList) :
    parsePrimitive text = .ok (.simple .blob) := by
  have hfixed : startsWith text "fixed" = true := startsWith_iff.2 h
  have hne : ∀ {t : String}, startsWith t "fixed" = false → text ≠ t :=
    fun ht => ne_of_startsWith hfixed ht
  unfold parsePrimitive
  rw [if_neg (hne (by decide)), if_neg (hne (by decide)), if_neg (hne (by decide)),
    if_neg (hne (by decide)), if_neg (hne (by decide)), if_neg (hne (by decide)),
    if_neg (hne (by decide)), if_neg (hne (by decide)), if_neg (hne (by decide)),
    if_neg (hne (by decide)), if_neg (hne (by decide)), if_pos hfixed]

theorem parsePrimitive_fixed (n : ℕ) :
    parsePrimitive (IcebergType.fixedText n) = .ok (.simple .blob) := by
  refine parsePrimitive_of_fixed ?_
  simp [IcebergType.fixedText]

/-- A text that begins with `decimal` reaches the parser of decimals. -/
theorem parsePrimitive_decimal {s : String} (h : startsWith s "decimal" = true) :
    parsePrimitive s = parseDecimal s := by
  have hne : ∀ {t : String}, startsWith t "decimal" = false → s ≠ t :=
    fun ht => ne_of_startsWith h ht
  have hfixed : ¬ startsWith s "fixed" = true := by
    intro hf
    rw [startsWith, List.isPrefixOf_iff_prefix] at h hf
    rcases List.prefix_or_prefix_of_prefix h hf with hp | hp <;> revert hp <;> decide
  unfold parsePrimitive
  rw [if_neg (hne (by decide)), if_neg (hne (by decide)), if_neg (hne (by decide)),
    if_neg (hne (by decide)), if_neg (hne (by decide)), if_neg (hne (by decide)),
    if_neg (hne (by decide)), if_neg (hne (by decide)), if_neg (hne (by decide)),
    if_neg (hne (by decide)), if_neg (hne (by decide)), if_neg hfixed,
    if_neg (hne (by decide)), if_pos h]

/-- The digits of a decimal type are what stands after its first parenthesis. -/
theorem parseDecimal_parens {s : String} {body : List Char}
    (hs : s.toList = "decimal(".toList ++ body ++ ")".toList) (hlen : body.length < 2 ^ 32) :
    parseDecimal s = (do
      let digits := split (String.ofList (body ++ [')'])) ','
      let width ← stoi (← stringAt digits 0)
      let scale ← stoi (← stringAt digits 1)
      makeDecimal width scale) := by
  have hfind : find s "(" = some 7 := by
    have hlist : s.toList = "decimal".toList ++ '(' :: (body ++ [')']) := by
      rw [hs]
      simp
    rw [find, hlist]
    exact findList_char (by decide)
  have hrfind : rfind s ")" = some (8 + body.length) := by
    have hlist : s.toList = ("decimal(".toList ++ body) ++ ')' :: [] := by
      rw [hs]
      simp
    rw [rfind, hlist]
    refine (rfindList_char (by simp) _).trans ?_
    rw [List.length_append]
    rfl
  have hsubstr : substr s (idx (7 + 1)) (idx (8 + body.length + 2 ^ 64 - 7)) =
      String.ofList (body ++ [')']) := by
    have hidx : idx (8 + body.length + 2 ^ 64 - 7) = body.length + 1 := by
      rw [idx]
      omega
    have hdrop : ("decimal(".toList ++ body ++ ")".toList).drop 8 = body ++ [')'] := by
      rw [List.append_assoc]
      rfl
    rw [hidx, idx_of_lt (by norm_num), substr, hs, hdrop, List.take_of_length_le (by simp)]
  unfold parseDecimal
  rw [hfind, hrfind]
  simp only [Option.getD_some, hsubstr]

theorem stoi_numeral {blanks : List Char} (hblanks : ∀ c ∈ blanks, isSpace c = true) {n : ℕ}
    (hn : n < 2 ^ 31) (rest : List Char) (hrest : ∀ c ∈ rest.head?, c.isDigit = false) :
    stoi (String.ofList (blanks ++ Nat.toDigits 10 n ++ rest)) = .ok (n : ℤ) := by
  rw [stoi, String.toList_ofList, leadingInt_numeral hblanks n hrest]
  dsimp only
  rw [if_pos (by constructor <;> omega)]

/-- A decimal type is decoded, with any blanks before its scale. -/
theorem parseDecimal_text {blank : String} (hblank : ∀ c ∈ blank.toList, isSpace c = true)
    (hlen : blank.toList.length ≤ 1) {precision scale : ℕ} (hscale : scale ≤ precision)
    (hprecision : precision ≤ 38) :
    parsePrimitive (IcebergType.decimalText blank precision scale) =
      .ok (.decimal precision scale) := by
  have hdigits : ∀ {n : ℕ}, n ≤ 38 → (Nat.toDigits 10 n).length ≤ 2 :=
    fun hn => Nat.toDigits_length 10 _ 2 (by omega) (by omega)
  have hcomma : ∀ n, ',' ∉ Nat.toDigits 10 n := notMem_toDigits (by decide)
  have hwidth := hdigits hprecision
  have hscale' := hdigits (hscale.trans hprecision)
  set body := Nat.toDigits 10 precision ++ ',' :: (blank.toList ++ Nat.toDigits 10 scale)
    with hbody
  have htext : (IcebergType.decimalText blank precision scale).toList =
      "decimal(".toList ++ body ++ ")".toList := by
    simp [IcebergType.decimalText, hbody]
  have hstart : startsWith (IcebergType.decimalText blank precision scale) "decimal" = true := by
    rw [startsWith, htext]
    rfl
  have hsplit : split (String.ofList (body ++ [')'])) ',' =
      [String.ofList (Nat.toDigits 10 precision),
        String.ofList (blank.toList ++ Nat.toDigits 10 scale ++ [')'])] := by
    have hlast : ',' ∉ blank.toList ++ Nat.toDigits 10 scale ++ [')'] := by
      simp only [List.mem_append, List.mem_singleton, not_or]
      refine ⟨⟨fun h => ?_, hcomma scale⟩, by decide⟩
      exact absurd (hblank _ h) (by decide)
    have hpieces : splitList ',' (body ++ [')']) = [Nat.toDigits 10 precision,
        blank.toList ++ Nat.toDigits 10 scale ++ [')']] := by
      rw [hbody, List.append_assoc, List.cons_append, splitList_append (hcomma precision),
        splitList_of_notMem hlast]
    rw [split, String.toList_ofList, hpieces]
    simp
  rw [parsePrimitive_decimal hstart, parseDecimal_parens htext (by
    rw [hbody, List.length_append, List.length_cons, List.length_append]
    omega)]
  have hnoBlank : ∀ c ∈ ([] : List Char), isSpace c = true := by simp
  have hstoi := stoi_numeral hnoBlank (n := precision) (by omega) [] (by simp)
  rw [List.nil_append, List.append_nil] at hstoi
  have hstoi' := stoi_numeral hblank (n := scale) (by omega) [')'] (by simp)
  simp only [hsplit, stringAt, List.getElem?_cons_zero, List.getElem?_cons_succ]
  change (stoi _ >>= fun width => stoi _ >>= fun scale => makeDecimal width scale) = _
  rw [hstoi, hstoi']
  change makeDecimal precision scale = _
  have huint : ∀ {n : ℕ}, n ≤ 38 → toUInt8 (n : ℤ) = n := by
    intro n hn
    rw [toUInt8]
    omega
  rw [makeDecimal, huint hprecision, huint (hscale.trans hprecision), if_pos hprecision]

/-! ### Types -/

open IcebergType

/-- The texts that encode a type have no NUL. -/
theorem nulFree_of_encodes {type : IcebergType} {s : String} (h : Encodes type (.str s)) :
    '\x00' ∉ s.toList := by
  cases type with
  | primitive p =>
    rw [Encodes] at h
    cases h
    cases p <;> decide
  | fixed n =>
    rw [Encodes] at h
    cases h
    simp [fixedText, notMem_toDigits (c := '\x00') (by decide)]
  | decimal precision scale valid =>
    rw [Encodes] at h
    have hnul : ∀ {blank : String}, '\x00' ∉ blank.toList →
        '\x00' ∉ (decimalText blank precision scale).toList := by
      intro blank hblank
      simp [decimalText, notMem_toDigits (c := '\x00') (by decide), hblank]
    rcases h with h | h
    · cases h
      exact hnul (by decide)
    · cases h
      exact hnul (by decide)
  | list element =>
    rw [Encodes] at h
    obtain ⟨_, _, h, -⟩ := h
    cases h
  | map key value =>
    rw [Encodes] at h
    obtain ⟨_, _, _, h, -⟩ := h
    cases h
  | struct fields =>
    rw [Encodes] at h
    obtain ⟨_, _, h, -⟩ := h
    cases h

mutual

/-- **A type** is decoded from each of its encodings. -/
theorem parseTypeValue_of_encodes :
    ∀ (type : IcebergType) (v : Json), Encodes type v → parseTypeValue v = .ok type.logical
  | .primitive p, v, h => by
    have hv := h
    rw [Encodes] at hv
    subst hv
    rw [parseTypeValue, cString_of_notMem (nulFree_of_encodes h), parsePrimitive_text, logical]
  | .fixed n, v, h => by
    have hv := h
    rw [Encodes] at hv
    subst hv
    rw [parseTypeValue, cString_of_notMem (nulFree_of_encodes h), parsePrimitive_fixed, logical]
  | .decimal precision scale valid, v, h => by
    have hv := h
    rw [Encodes] at hv
    rcases hv with rfl | rfl
    · rw [parseTypeValue, cString_of_notMem (nulFree_of_encodes h),
        parseDecimal_text (by simp) (by simp) valid.1 valid.2, logical]
    · rw [parseTypeValue, cString_of_notMem (nulFree_of_encodes h),
        parseDecimal_text (by simp [isSpace]) (by simp) valid.1 valid.2, logical]
  | .list element, v, h => by
    rw [Encodes] at h
    obtain ⟨members, e, rfl, htype, helement, he⟩ := h
    have ih := parseTypeValue_of_encodes element e he
    rw [parseTypeValue, tryGetStr_of_member htype]
    simp only [parseMember_eq, helement, parseTypePtr, ih, logical]
    rfl
  | .map key value, v, h => by
    rw [Encodes] at h
    obtain ⟨members, k, e, rfl, htype, hkey, hk, hvalue, he⟩ := h
    have ihkey := parseTypeValue_of_encodes key k hk
    have ihvalue := parseTypeValue_of_encodes value e he
    rw [parseTypeValue, tryGetStr_of_member htype]
    simp only [parseMember_eq, hkey, hvalue, parseTypePtr, ihkey, ihvalue, logical]
    rfl
  | .struct fields, v, h => by
    rw [Encodes] at h
    obtain ⟨members, vs, rfl, htype, hfields, hvs⟩ := h
    have ih := parseFields_of_encodes fields vs hvs
    rw [parseTypeValue, tryGetStr_of_member htype]
    simp only [parseStruct_eq, hfields, elems, ih, logical]
    rfl

/-- The fields of a struct are decoded in their order. -/
theorem parseFields_of_encodes : ∀ (fields : List (String × IcebergType)) (vs : List Json),
    EncodesFields fields vs → vs.mapM parseField = .ok (logicalFields fields)
  | [], vs, h => by
    rw [EncodesFields] at h
    subst h
    rw [logicalFields]
    rfl
  | (name, type) :: fields, vs, h => by
    rw [EncodesFields] at h
    obtain ⟨members, t, vs', rfl, hname, htype, ht, hrest⟩ := h
    have ihtype := parseTypeValue_of_encodes type t ht
    have ihrest := parseFields_of_encodes fields vs' hrest
    have hfield : parseField (.obj members) = .ok (cString name, type.logical) := by
      rw [parseField_eq, tryGetStr_of_member hname, htype, parseTypePtr, ihtype]
      rfl
    rw [List.mapM_cons, hfield, ihrest, logicalFields]
    rfl

end

/-! ### Schemas -/

/-- A column of a schema. -/
structure IcebergField where
  id : ℤ
  name : String
  type : IcebergType
  required : Bool
  idInRange : -(2 ^ 31) ≤ id ∧ id < 2 ^ 31

/-- A schema of a table. -/
structure IcebergSchema where
  schemaId : ℤ
  fields : List IcebergField

namespace IcebergField

/-- The column definition. -/
def column (field : IcebergField) : IcebergColumnDefinition where
  id := field.id
  name := cString field.name
  type := field.type.logical
  defaultValue := field.type.logical
  required := field.required

/-- The value encodes this column. -/
def Encodes (field : IcebergField) (v : Json) : Prop :=
  ∃ members t, v = .obj members ∧ member "id" members = some (.int field.id) ∧
    member "name" members = some (.str field.name) ∧ member "type" members = some t ∧
    IcebergType.Encodes field.type t ∧ member "required" members = some (.bool field.required)

theorem parseFromJson_of_encodes {field : IcebergField} {v : Json} (h : field.Encodes v) :
    IcebergColumnDefinition.parseFromJson (some v) = .ok field.column := by
  obtain ⟨members, t, rfl, hid, hname, htype, ht, hrequired⟩ := h
  have hint : toInt32 (Json.int field.id).getUInt = field.id := by
    have hrange := field.idInRange
    have hmod : (field.id % 2 ^ 64).toNat % 2 ^ 32 = (field.id % 2 ^ 32).toNat := by omega
    rw [getUInt, toInt32, hmod]
    split_ifs <;> omega
  have hparse : IcebergColumnDefinition.parseFromJson (some (.obj members)) =
      .ok { id := toInt32 (Json.int field.id).getUInt, name := cString field.name,
            type := field.type.logical, defaultValue := field.type.logical,
            required := field.required } := by
    unfold IcebergColumnDefinition.parseFromJson
    rw [tryGetStr_of_member hname]
    simp only [tryGetNumFromObject, tryGetBoolFromObject, objGet, hid, htype, hrequired,
      parseTypePtr, parseTypeValue_of_encodes field.type t ht]
    rfl
  rw [hparse, hint]
  rfl

end IcebergField

namespace IcebergSchema

/-- The value encodes this schema. -/
def Encodes (schema : IcebergSchema) (v : Json) : Prop :=
  ∃ members vs, v = .obj members ∧ member "type" members = some (.str "struct") ∧
    member "schema-id" members = some (.int schema.schemaId) ∧
    member "fields" members = some (.arr vs) ∧ List.Forall₂ IcebergField.Encodes schema.fields vs

/-- The schema has this id, which is an `idx_t`. -/
def hasId (schemaId : ℕ) (schema : IcebergSchema) : Bool :=
  decide (schema.schemaId % 2 ^ 64 = schemaId)

theorem getUInt_schemaId_iff (schema : IcebergSchema) (schemaId : ℕ) :
    (Json.int schema.schemaId).getUInt = schemaId ↔ hasId schemaId schema = true := by
  have hnonneg := Int.emod_nonneg schema.schemaId (b := 2 ^ 64) (by norm_num)
  rw [getUInt, hasId, decide_eq_true_eq]
  omega

theorem tryGetSchemaId {schema : IcebergSchema} {v : Json} (h : schema.Encodes v) :
    tryGetNumFromObject (some v) "schema-id" = .ok (Json.int schema.schemaId).getUInt := by
  obtain ⟨members, vs, rfl, -, hid, -⟩ := h
  rw [tryGetNumFromObject, objGet, hid]

theorem parseSchemaFromJson_of_encodes {schema : IcebergSchema} {v : Json} (h : schema.Encodes v) :
    parseSchemaFromJson (some v) = .ok (schema.fields.map IcebergField.column) := by
  obtain ⟨members, vs, rfl, htype, -, hfields, hvs⟩ := h
  have hmap : vs.mapM (fun field => IcebergColumnDefinition.parseFromJson (some field)) =
      .ok (schema.fields.map IcebergField.column) := by
    generalize schema.fields = fields at hvs ⊢
    clear hfields
    induction hvs with
    | nil => rfl
    | cons hfield _ ih =>
      rw [List.mapM_cons, IcebergField.parseFromJson_of_encodes hfield, ih, List.map_cons]
      rfl
  unfold parseSchemaFromJson
  rw [tryGetStr_of_member htype, objGet, hfields, elems]
  exact hmap

/-- The columns of the first schema that has the id. -/
theorem parseSchema_of_encodes {schemas : List IcebergSchema} {vs : List Json}
    (h : List.Forall₂ Encodes schemas vs) (schemaId : ℕ) {schema : IcebergSchema}
    (hfind : schemas.find? (hasId schemaId) = some schema) :
    parseSchema schemaId vs = .ok (schema.fields.map IcebergField.column) := by
  induction h with
  | nil => cases hfind
  | @cons s v schemas vs hs _ ih =>
    rw [parseSchema, tryGetSchemaId hs]
    change (if (Json.int s.schemaId).getUInt = schemaId then parseSchemaFromJson (some v)
      else parseSchema schemaId vs) = _
    simp only [getUInt_schemaId_iff]
    by_cases hid : hasId schemaId s = true
    · rw [List.find?_cons_of_pos hid] at hfind
      cases hfind
      rw [if_pos hid, parseSchemaFromJson_of_encodes hs]
    · rw [List.find?_cons_of_neg hid] at hfind
      rw [if_neg hid, ih hfind]

end IcebergSchema

/-- **The scan-side schema parser** decodes every encoding of every type, and gives the columns of the
first schema that has the id.  Names without a NUL stay as they are. -/
theorem schemas_decoded :
    (∀ name : String, '\x00' ∉ name.toList → cString name = name) ∧
    (∀ (type : IcebergType) (v : Json), IcebergType.Encodes type v →
      parseTypeValue v = .ok type.logical) ∧
    (∀ (schemas : List IcebergSchema) (vs : List Json),
      List.Forall₂ IcebergSchema.Encodes schemas vs → ∀ (schemaId : ℕ) (schema : IcebergSchema),
        schemas.find? (IcebergSchema.hasId schemaId) = some schema →
          parseSchema schemaId vs = .ok (schema.fields.map IcebergField.column)) := by
  refine ⟨fun name h => cString_of_notMem h, parseTypeValue_of_encodes, ?_⟩
  intro schemas vs h schemaId schema hfind
  exact IcebergSchema.parseSchema_of_encodes h schemaId hfind

/-- A list of decimals. -/
def pricesType : IcebergType := .list (.decimal 10 2 (by omega))

/-- Its encoding, with the members that the parser ignores. -/
def pricesJson : Json :=
  .obj [("element-id", .int 7), ("element", .str "decimal(10, 2)"), ("type", .str "list"),
    ("element-required", .bool false)]

theorem pricesJson_encodes : IcebergType.Encodes pricesType pricesJson := by
  rw [pricesType, IcebergType.Encodes]
  refine ⟨_, .str "decimal(10, 2)", rfl, rfl, rfl, ?_⟩
  rw [IcebergType.Encodes]
  exact Or.inr rfl

/-- A schema with a column of prices. -/
def orderSchema : IcebergSchema where
  schemaId := 3
  fields := [⟨1, "prices", pricesType, true, by omega⟩]

/-- The column of prices is read. -/
theorem schemas_decoded_prices :
    parseTypeValue pricesJson = .ok (.list (.decimal 10 2)) ∧
    parseSchema 3 [.obj [("fields", .arr [.obj [("id", .int 1), ("name", .str "prices"),
        ("required", .bool true), ("doc", .str "net"), ("type", pricesJson)]]),
        ("schema-id", .int 3), ("type", .str "struct")]] =
      .ok [⟨1, "prices", .list (.decimal 10 2), .list (.decimal 10 2), true⟩] := by
  refine ⟨schemas_decoded.2.1 pricesType pricesJson pricesJson_encodes,
    schemas_decoded.2.2 [orderSchema] _ (.cons ?_ .nil) 3 orderSchema rfl⟩
  refine ⟨_, _, rfl, rfl, rfl, rfl, .cons ?_ .nil⟩
  exact ⟨_, pricesJson, rfl, rfl, rfl, rfl, pricesJson_encodes, rfl⟩

end DuckIceberg
