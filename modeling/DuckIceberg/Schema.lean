import DuckIceberg.Json

/-!
# Schemas in the table metadata

`schema.cpp`: the column types in a table metadata file, which are strings or, for nested types,
objects.  The functions that recurse through `yyjson_obj_get` are written as recursions over the
members of the object; `parseMember_eq` and `parseStruct_eq` give them back the form of the source.
-/

namespace DuckIceberg

open Strings Json IcebergUtils

/-- `string::npos` -/
def npos : ℕ := 2 ^ 64 - 1

/-- `std::stoi` -/
def stoi (s : String) : Except Error ℤ :=
  match leadingInt s.toList with
  | none => .error ⟨.invalidArgument, "stoi"⟩
  | some n =>
    if -(2 ^ 31) ≤ n ∧ n < 2 ^ 31 then .ok n else .error ⟨.outOfRange, "stoi"⟩

/-- `LogicalType::DECIMAL`, whose arguments are of type `uint8_t` -/
def makeDecimal (width scale : ℤ) : Except Error LogicalType :=
  if toUInt8 width ≤ 38 then .ok (.decimal (toUInt8 width) (toUInt8 scale))
  else .error ⟨.internal, "Decimal has a width which is bigger than the maximum supported width"⟩

/-- The string at a position of a vector. -/
def stringAt (l : List String) (i : ℕ) : Except Error String :=
  match l[i]? with
  | some s => .ok s
  | none => .error ⟨.internal, "Attempted to access index out of range of a vector"⟩

/-- The `decimal` case of `ParseTypeValue` -/
def parseDecimal (typeStr : String) : Except Error LogicalType := do
  let start := (find typeStr "(").getD npos
  let stop := (rfind typeStr ")").getD npos
  let rawDigits := substr typeStr (idx (start + 1)) (idx (stop + 2 ^ 64 - start))
  let digits := split rawDigits ','
  let width ← stoi (← stringAt digits 0)
  let scale ← stoi (← stringAt digits 1)
  makeDecimal width scale

/-- `ParseTypeValue` of a string -/
def parsePrimitive (typeStr : String) : Except Error LogicalType :=
  if typeStr = "boolean" then .ok (.simple .boolean)
  else if typeStr = "int" then .ok (.simple .integer)
  else if typeStr = "long" then .ok (.simple .bigint)
  else if typeStr = "float" then .ok (.simple .float)
  else if typeStr = "double" then .ok (.simple .double)
  else if typeStr = "date" then .ok (.simple .date)
  else if typeStr = "time" then .ok (.simple .time)
  else if typeStr = "timestamp" then .ok (.simple .timestamp)
  else if typeStr = "timestamptz" then .ok (.simple .timestampTz)
  else if typeStr = "string" then .ok (.simple .varchar)
  else if typeStr = "uuid" then .ok (.simple .uuid)
  else if startsWith typeStr "fixed" then .ok (.simple .blob)
  else if typeStr = "binary" then .ok (.simple .blob)
  else if startsWith typeStr "decimal" then parseDecimal typeStr
  else .error ⟨.io, "Encountered an unrecognized type in JSON schema: \"" ++ typeStr ++ "\""⟩

mutual

/-- `ParseTypeValue`, with `ParseComplexType`, `ParseList` and `ParseMap` -/
def parseTypeValue : Json → Except Error LogicalType
  | .obj members =>
    match tryGetStrFromObject (some (.obj members)) "type" with
    | .error e => .error e
    | .ok typeStr =>
      if typeStr = "struct" then (parseStruct members).map LogicalType.struct
      else if typeStr = "list" then (parseMember "element" members).map LogicalType.list
      else if typeStr = "map" then do
        let key ← parseMember "key" members
        let value ← parseMember "value" members
        return .map key value
      else .error (invalidField "type")
  | .str s => parsePrimitive (cString s)
  | _ => .error (invalidField "type")

/-- `ParseTypeValue` of the first member with this key -/
def parseMember (key : String) : List (String × Json) → Except Error LogicalType
  | [] => .error (invalidField "type")
  | (k, v) :: members => if k = key then parseTypeValue v else parseMember key members

/-- `ParseStruct` -/
def parseStruct : List (String × Json) → Except Error (List (String × LogicalType))
  | [] => .ok []
  | (k, v) :: members => if k = "fields" then parseFieldArray v else parseStruct members

/-- The loop of `ParseStruct`, which finds nothing in a value that is no array -/
def parseFieldArray : Json → Except Error (List (String × LogicalType))
  | .arr fields => parseFields fields
  | _ => .ok []

/-- The rounds of the loop of `ParseStruct` -/
def parseFields : List Json → Except Error (List (String × LogicalType))
  | [] => .ok []
  | field :: fields => do
    let child ← parseField field
    let children ← parseFields fields
    return child :: children

/-- One round of the loop of `ParseStruct` -/
def parseField : Json → Except Error (String × LogicalType)
  | .obj members => do
    let name ← tryGetStrFromObject (some (.obj members)) "name"
    let type ← parseMember "type" members
    return (name, type)
  | _ => .error (invalidField "name")

end

/-- `ParseTypeValue` of a pointer that may be null -/
def parseTypePtr : Option Json → Except Error LogicalType
  | some v => parseTypeValue v
  | none => .error (invalidField "type")

theorem parseMember_eq (key : String) (members : List (String × Json)) :
    parseMember key members = parseTypePtr (member key members) := by
  induction members with
  | nil => simp only [parseMember, member, parseTypePtr]
  | cons m ms ih =>
    obtain ⟨k, v⟩ := m
    simp only [parseMember, member]
    split_ifs
    · rfl
    · exact ih

theorem parseFields_eq (fields : List Json) : parseFields fields = fields.mapM parseField := by
  induction fields with
  | nil => simp only [parseFields]; rfl
  | cons f fs ih => simp only [parseFields, List.mapM_cons, ih]

theorem parseStruct_eq (members : List (String × Json)) :
    parseStruct members = (elems (member "fields" members)).mapM parseField := by
  induction members with
  | nil => simp only [parseStruct]; rfl
  | cons m ms ih =>
    obtain ⟨k, v⟩ := m
    simp only [parseStruct, member]
    split_ifs
    · cases v <;> simp only [parseFieldArray, elems, parseFields_eq] <;> rfl
    · exact ih

theorem parseField_eq (members : List (String × Json)) :
    parseField (.obj members) = do
      let name ← tryGetStrFromObject (some (.obj members)) "name"
      let type ← parseTypePtr (member "type" members)
      return (name, type) := by
  rw [parseField, parseMember_eq]

/-! ### Columns -/

/-- `int32_t(n)` -/
def toInt32 (n : ℕ) : ℤ :=
  if n % 2 ^ 32 < 2 ^ 31 then ((n % 2 ^ 32 : ℕ) : ℤ) else ((n % 2 ^ 32 : ℕ) : ℤ) - 2 ^ 32

/-- `IcebergColumnDefinition` -/
structure IcebergColumnDefinition where
  id : ℤ
  name : String
  type : LogicalType
  /-- the type whose `NULL` is the default -/
  defaultValue : LogicalType
  required : Bool
  deriving DecidableEq, Repr

/-- `IcebergColumnDefinition::ParseFromJson`, with `ParseType` -/
def IcebergColumnDefinition.parseFromJson (val : Option Json) :
    Except Error IcebergColumnDefinition := do
  let id ← tryGetNumFromObject val "id"
  let name ← tryGetStrFromObject val "name"
  let type ← parseTypePtr (objGet val "type")
  let required ← tryGetBoolFromObject val "required"
  return { id := toInt32 id, name, type, defaultValue := type, required }

/-- `ParseSchemaFromJson` -/
def parseSchemaFromJson (schemaJson : Option Json) :
    Except Error (List IcebergColumnDefinition) := do
  let typeStr ← tryGetStrFromObject schemaJson "type"
  if typeStr ≠ "struct" then
    throw ⟨.io, "Schema in JSON Metadata is invalid"⟩
  (elems (objGet schemaJson "fields")).mapM fun field =>
    IcebergColumnDefinition.parseFromJson (some field)

/-- `IcebergSnapshot::ParseSchema` -/
def parseSchema (schemaId : ℕ) : List Json → Except Error (List IcebergColumnDefinition)
  | [] => .error ⟨.io, "Iceberg schema with schema id " ++ toString schemaId ++ " was not found!"⟩
  | schema :: schemas => do
    let foundSchemaId ← tryGetNumFromObject (some schema) "schema-id"
    if foundSchemaId = schemaId then parseSchemaFromJson (some schema)
    else parseSchema schemaId schemas

end DuckIceberg
