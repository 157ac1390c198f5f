import DuckIceberg.Catalog.CatalogApi

/-!
# The credentials of a table

`GetTableCredentials`: what the metadata of a table says about credentials is made into the secrets
that have to be created to read the table, and `GetScanFunction` creates them.  The secret manager is
part of DuckDB: it compares the names of secrets without regard to case.
-/

namespace DuckIceberg

open Strings Json IcebergUtils

/-! ### Secrets -/

/-- `Value`, of the types that an option has -/
inductive Value
  | varchar (s : String)
  | boolean (b : Bool)
  deriving DecidableEq, Repr

/-- `Value::ToString` -/
def Value.toString : Value → String
  | .varchar s => s
  | .boolean b => if b then "true" else "false"

/-- `CreateSecretInfo`, with `REPLACE_ON_CONFLICT` -/
structure CreateSecretInfo where
  name : String
  scope : List String := []
  options : CIMap Value
  type : String := "s3"
  provider : String := "config"
  storageType : String := "memory"

/-- `KeyValueSecret` -/
abbrev KeyValueSecret := CIMap String

/-- `TryGetValue`, with `ToString`, which says `NULL` when there is no value -/
def KeyValueSecret.tryGetValue (secret : KeyValueSecret) (key : String) : String :=
  (NormMap.find? secret key).getD "NULL"

/-- What `IRCatalog::GetSecret` finds; a secret that is no `KeyValueSecret` is `none`. -/
abbrev FoundSecret := Except Error (Option KeyValueSecret)

/-- `dynamic_cast<const KeyValueSecret &>` -/
def kvSecret : Option KeyValueSecret → Except Error KeyValueSecret
  | some secret => .ok secret
  | none => .error ⟨.internal, "std::bad_cast"⟩

/-- `yyjson_get_str`, as the `Value` it is made into -/
def getStr : Json → Value
  | .str s => .varchar (cString s)
  | _ => .varchar ""

namespace IRCAPI

/-! ### Options -/

/-- `config_to_option` -/
def configToOption : List (String × String) :=
  [("s3.access-key-id", "key_id"), ("s3.secret-access-key", "secret"),
    ("s3.session-token", "session_token"), ("s3.region", "region"), ("s3.endpoint", "endpoint")]

/-- The options that are taken as they are. -/
def copyOptions (config : Option Json) (options : CIMap Value) : CIMap Value :=
  configToOption.foldl
    (fun options entry =>
      match objGet config entry.1 with
      | some item => options.insert entry.2 (getStr item)
      | none => options) options

/-- The option `s3.path-style-access`. -/
def pathStyleOptions (config : Option Json) (options : CIMap Value) :
    Except Error (CIMap Value) :=
  match objGet config "s3.path-style-access" with
  | none => .ok options
  | some (.str s) =>
    if cString s = "true" then
      .ok ((options.insert "use_ssl" (.boolean false)).insert "url_style" (.varchar "path"))
    else if cString s = "false" then .ok (options.insert "use_ssl" (.boolean true))
    else
      .error ⟨.invalidInput, "Unexpected value ('" ++ cString s ++
        "') for 's3.path-style-access' in 'config' property"⟩
  | some _ => .error ⟨.undefined, "a string is made of a null pointer"⟩

/-- An endpoint without its scheme and without the slash at its end. -/
def trimEndpoint (endpoint : String) : String :=
  let endpoint := if startsWith endpoint "http://" then substrFrom endpoint 7 else endpoint
  if endsWith endpoint "/" then substr endpoint 0 (endpoint.toList.length - 1) else endpoint

/-- `ParseConfigOptions` -/
def parseConfigOptions (config : Option Json) (options : CIMap Value) :
    Except Error (CIMap Value) :=
  if objSize config = 0 then .ok options
  else do
    let options ← pathStyleOptions config (copyOptions config options)
    match options.find? "endpoint" with
    | none => return options
    | some endpoint => return options.insert "endpoint" (.varchar (trimEndpoint endpoint.toString))

/-! ### Credentials -/

/-- `IRCAPITableCredentials` -/
structure IRCAPITableCredentials where
  config : Option CreateSecretInfo
  storageCredentials : List CreateSecretInfo

/-- What is added to the name of the table's secrets for a storage credential. -/
def indexSuffix (index : ℕ) (scope : String) : String := "_" ++ toString index ++ "_" ++ scope

/-- The secret of a storage credential. -/
def storageCredential (secretBaseName : String) (configOptions : CIMap Value)
    (entry : Json × ℕ) : Except Error CreateSecretInfo :=
  match objGet (some entry.1) "prefix" with
  | none => .error ⟨.invalidInput,
      "required property 'prefix' is missing from the StorageCredential schema"⟩
  | some (.str s) => do
    let options ← parseConfigOptions (objGet (some entry.1) "config") configOptions
    return { name := secretBaseName ++ indexSuffix entry.2 (cString s), scope := [cString s], options }
  | some _ => .error ⟨.invalidInput, "property 'prefix' of StorageCredential is NULL"⟩

/-- The options that the configuration of the table gives. -/
def configOptions (config : Option Json) (catalogCredentials : Option KeyValueSecret) :
    Except Error (CIMap Value) := do
  let options ←
    if config.isSome then do
      let secret ← kvSecret catalogCredentials
      pure (NormMap.insert NormMap.empty "region" (.varchar (secret.tryGetValue "region")))
    else pure NormMap.empty
  parseConfigOptions config options

/-- `GetTableCredentials`, when `GetTableMetadataCached` returns `metadata` -/
def getTableCredentials (ctx : CatalogContext) (metadata : Except Error String)
    (catalogSecret : FoundSecret) (secretBaseName : String) :
    Except Error IRCAPITableCredentials := do
  let apiResult ← metadata
  let root ← apiResultToDoc ctx apiResult
  let catalogCredentials ← catalogSecret
  let options ← configOptions (objGet root "config") catalogCredentials
  let storageCredentials ← (elems (objGet root "storage-credentials")).zipIdx.mapM
    (storageCredential secretBaseName options)
  let config :=
    if storageCredentials = [] ∧ options.entries ≠ [] then
      some { name := secretBaseName, options }
    else none
  return { config, storageCredentials }

end IRCAPI

/-! ### `GetScanFunction` -/

namespace ICTableEntry

open IRCAPI

/-- `secret_base_name` -/
def secretBaseName (tableData : IRCAPITable) : String :=
  "__internal_ic_" ++ tableData.tableId ++ "__" ++ tableData.schemaName ++ "__" ++ tableData.name

/-- `"s3." + region + ".amazonaws.com"` -/
def awsEndpoint (region : String) : String := "s3." ++ region ++ ".amazonaws.com"

/-- The third colon ends the account, and what follows it up to the next is the region. -/
def warehouseRegion (warehouse : String) : Except Error String :=
  let substrings := (splitList ':' warehouse.toList).filter (· ≠ [])
  match (if substrings = [] then [warehouse.toList] else substrings)[3]? with
  | some region => .ok (String.ofList region)
  | none => .error ⟨.internal, "Attempted to access index 3 within vector"⟩

/-- The options of the secret for the catalogs of AWS. -/
def awsOptions (catalog : IRCatalogConfig) (catalogSecret : FoundSecret)
    (options : CIMap Value) : Except Error (CIMap Value) :=
  if startsWith catalog.host "glue" then do
    let secret ← kvSecret (← catalogSecret)
    return options.insert "endpoint" (.varchar (awsEndpoint (secret.tryGetValue "region")))
  else if startsWith catalog.host "s3tables" then do
    let secret ← kvSecret (← catalogSecret)
    let region ← warehouseRegion catalog.warehouse
    let sessionToken := (NormMap.find? secret "session_token").getD ""
    return [("key_id", secret.tryGetValue "key_id"), ("secret", secret.tryGetValue "secret"),
      ("session_token", sessionToken), ("region", region), ("endpoint", awsEndpoint region)].foldl
      (fun options entry => NormMap.insert options entry.1 (.varchar entry.2)) NormMap.empty
  else .ok options

/-- The secret of the configuration of the table, for the place of its metadata. -/
def configSecret (catalog : IRCatalogConfig) (catalogSecret : FoundSecret)
    (tableData : IRCAPITable) (config : CreateSecretInfo) : Except Error CreateSecretInfo :=
  let lcStorageLocation := lower tableData.storageLocation
  match find lcStorageLocation "metadata" with
  | none => .error ⟨.invalidInput, "Substring not found"⟩
  | some metadataPos => do
    let options ← awsOptions catalog catalogSecret config.options
    return { config with scope := [substr lcStorageLocation 0 metadataPos], options }

/-- The secrets that `GetScanFunction` creates, in turn. -/
def secretInfos (ctx : CatalogContext) (catalog : IRCatalogConfig) (tableData : IRCAPITable)
    (metadata : Except Error String) (catalogSecret : FoundSecret) :
    Except Error (List CreateSecretInfo) :=
  if tableData.dataSourceFormat ≠ "ICEBERG" then
    .error ⟨.notImplemented, "Table '" ++ tableData.name ++ "' is of unsupported format '" ++
      tableData.dataSourceFormat ++ "', "⟩
  else do
    let credentials ← getTableCredentials ctx metadata catalogSecret (secretBaseName tableData)
    match credentials.config with
    | none => return credentials.storageCredentials
    | some config =>
      let info ← configSecret catalog catalogSecret tableData config
      return info :: credentials.storageCredentials

end ICTableEntry

/-- The secrets of a secret manager, by their names. -/
abbrev Secrets := CIMap CreateSecretInfo

/-- `CreateSecret`, for each of these; `accepts` is whether one can be made of the options. -/
def createSecrets (accepts : CreateSecretInfo → Except Error Unit) :
    List CreateSecretInfo → Secrets → Except Error Unit × Secrets
  | [], secrets => (.ok (), secrets)
  | info :: infos, secrets =>
    match accepts info with
    | .error e => (.error e, secrets)
    | .ok _ => createSecrets accepts infos (secrets.insert info.name info)

/-- `GetScanFunction`, up to the bind of `iceberg_scan` -/
def ICTableEntry.getScanFunction (ctx : CatalogContext)
    (accepts : CreateSecretInfo → Except Error Unit) (catalog : IRCatalogConfig)
    (tableData : IRCAPITable) (metadata : Except Error String) (catalogSecret : FoundSecret)
    (secrets : Secrets) : Except Error Unit × Secrets :=
  match secretInfos ctx catalog tableData metadata catalogSecret with
  | .error e => (.error e, secrets)
  | .ok infos => createSecrets accepts infos secrets

end DuckIceberg
