import DuckIceberg.Catalog.MetadataCache
import DuckIceberg.Catalog.TypeText

/-!
# Tables and schemas of the catalog

`catalog_api.cpp`: what the answers of the server say about the namespaces, the tables of a
namespace and the columns of a table.  A request is modelled by the answer it gets.
-/

namespace DuckIceberg

open Strings Json IcebergUtils ICUtils

/-- `IRCAPIColumnDefinition` -/
structure IRCAPIColumnDefinition where
  name : String
  typeText : String
  precision : ℕ
  scale : ℕ
  position : ℕ
  deriving DecidableEq, Repr

/-- `IRCAPITable` -/
structure IRCAPITable where
  tableId : String
  name : String
  catalogName : String
  schemaName : String
  dataSourceFormat : String
  storageLocation : String := ""
  columns : List IRCAPIColumnDefinition := []
  deriving DecidableEq, Repr

/-- `IRCAPISchema` -/
structure IRCAPISchema where
  schemaName : String
  catalogName : String
  deriving DecidableEq, Repr

namespace IRCAPI

/-! ### Columns -/

/-- `idx_t(-1)` -/
def minusOne : ℕ := 2 ^ 64 - 1

/-- `ParseColumnDefinition` -/
def parseColumnDefinition (columnDef : Json) : Except Error IRCAPIColumnDefinition := do
  let name ← tryGetStrFromObject (some columnDef) "name"
  let typeText ← tryGetStrFromObject (some columnDef) "type"
  let precision ←
    if typeText = "decimal" then tryGetNumFromObject (some columnDef) "type_precision"
    else .ok minusOne
  let scale ←
    if typeText = "decimal" then tryGetNumFromObject (some columnDef) "type_scale"
    else .ok minusOne
  let id ← tryGetNumFromObject (some columnDef) "id"
  return { name, typeText, precision, scale, position := idx (id + minusOne) }

/-- The loop of `populateTableMetadata`: the columns of the schemas that have the id, and whether there
is one. -/
def currentColumns (currentSchemaId : ℕ) :
    List Json → Except Error (Bool × List IRCAPIColumnDefinition)
  | [] => .ok (false, [])
  | schema :: schemas => do
    let schemaId ← tryGetNumFromObject (some schema) "schema-id"
    if schemaId = currentSchemaId then
      let columns ← (elems (objGet (some schema) "fields")).mapM parseColumnDefinition
      let others ← currentColumns currentSchemaId schemas
      return (true, columns ++ others.2)
    else currentColumns currentSchemaId schemas

/-- `populateTableMetadata` -/
def populateTableMetadata (table : IRCAPITable) (metadataRoot : Option Json) :
    Except Error IRCAPITable := do
  let storageLocation ← tryGetStrFromObject metadataRoot "metadata-location"
  let metadata := objGet metadataRoot "metadata"
  let currentSchemaId ← tryGetNumFromObject metadata "current-schema-id"
  let found ← currentColumns currentSchemaId (elems (objGet metadata "schemas"))
  if found.1 = false then
    throw ⟨.invalidInput, "Current schema not found"⟩
  return { table with storageLocation, columns := table.columns ++ found.2 }

/-! ### Tables -/

/-- `std::replace` of `'_'` by `'-'` -/
def replaceUnderscores (s : String) : String :=
  String.ofList (s.toList.map fun c => if c = '_' then '-' else c)

/-- `createTable` -/
def createTable (catalog : IRCatalogConfig) (schema tableName : String) : IRCAPITable where
  catalogName := catalog.name
  schemaName := schema
  name := tableName
  dataSourceFormat := "ICEBERG"
  tableId := replaceUnderscores ("uuid-" ++ schema ++ "-" ++ "table")

/-- `GetTable` without credentials, which fetches nothing -/
def getTable (catalog : IRCatalogConfig) (schema tableName : String) : IRCAPITable :=
  { createTable catalog schema tableName with
    columns := [{ name := "__", typeText := "int", precision := minusOne, scale := minusOne,
                  position := 0 }] }

/-- `GetTable` with credentials, of a catalog whose server answers the request with `response` -/
def getTableWithCredentials (ctx : CatalogContext) (catalog : IRCatalog) (schema tableName : String)
    (response : Except Error String) : Except Error IRCAPITable × IRCatalog :=
  match catalog.getTableMetadata ctx schema tableName response with
  | (.error e, catalog) => (.error e, catalog)
  | (.ok result, catalog) =>
    (do
      let metadataRoot ← apiResultToDoc ctx result
      populateTableMetadata (createTable catalog.config schema tableName) metadataRoot, catalog)

/-- `GetTables`, when the server answers with `response` -/
def getTables (ctx : CatalogContext) (catalog : IRCatalogConfig) (schema : String)
    (response : Except Error String) : Except Error (List IRCAPITable) := do
  let apiResult ← response
  let root ← apiResultToDoc ctx apiResult
  (elems (objGet root "identifiers")).mapM fun table => do
    let name ← tryGetStrFromObject (some table) "name"
    return getTable catalog schema name

/-! ### Schemas -/

/-- `yyjson_arr_get(schema, 0)`, with `yyjson_get_str`; a `std::string` made of a null pointer is
undefined -/
def namespaceName (schema : Json) : Except Error String :=
  match (elems (some schema)).head? with
  | some (.str s) => .ok (cString s)
  | _ => .error ⟨.undefined, "a string is made of a null pointer"⟩

/-- `GetSchemas`, when the server answers with `response` -/
def getSchemas (ctx : CatalogContext) (catalog : IRCatalogConfig)
    (response : Except Error String) : Except Error (List IRCAPISchema) := do
  let apiResult ← response
  let root ← apiResultToDoc ctx apiResult
  (elems (objGet root "namespaces")).mapM fun schema => do
    let schemaName ← namespaceName schema
    return { catalogName := catalog.name, schemaName }

/-! ### The columns of a table -/

/-- `CreateColumnDefinition` -/
def createColumnDefinition (ctx : CatalogContext) (coldef : IRCAPIColumnDefinition) :
    Except Error (String × LogicalType) := do
  let type ← typeToLogicalType ctx.castUInt8 coldef.typeText
  return (coldef.name, type)

/-- The columns of `_CreateCatalogEntry` -/
def createColumns (ctx : CatalogContext) (table : IRCAPITable) :
    Except Error (List (String × LogicalType)) :=
  table.columns.mapM (createColumnDefinition ctx)

end IRCAPI

end DuckIceberg
