import DuckIceberg.Catalog.FilledTables

/-!
# The whole catalog

An `IRCatalog` keeps what it fetches at three levels: the set of its schemas, the set of tables of each
schema, and the responses of `SetCachedValue`.  This is the catalog with all three, and its calls.

* `perform_writes`: a call that does not read the clock goes by what the server answers, the
  configuration and the sets, and adds a response to the cache at most;
* `performAll_cached`: what is in the cache is under the URL of a table.
-/

namespace DuckIceberg

open Strings Json IcebergUtils ICUtils IRCAPI

namespace IRCatalogConfig

/-- The URL that `GetSchemas` requests. -/
def namespacesURL (urlEncode : String → String) (catalog : IRCatalogConfig) : String :=
  ((catalog.getBaseUrl.addPathComponent catalog.catalogPrefix).addPathComponent
    "namespaces").getURL urlEncode

/-- The URL that `GetTables` requests. -/
def tablesURL (urlEncode : String → String) (catalog : IRCatalogConfig) (schema : String) : String :=
  ((((catalog.getBaseUrl.addPathComponent catalog.catalogPrefix).addPathComponent
    "namespaces").addPathComponent schema).addPathComponent "tables").getURL urlEncode

end IRCatalogConfig

/-- The data of an `IRCSchemaEntry`: `schema_data` and the tables of the schema. -/
structure IRCSchemaEntry where
  schemaData : IRCAPISchema
  tables : IRCCatalogSet ICTableEntry := {}

/-- `IRCatalog`, with its schemas -/
structure AttachedCatalog where
  catalog : IRCatalog
  schemas : IRCCatalogSet IRCSchemaEntry := {}
  defaultSchema : String := ""

/-- `OnEntryNotFound` -/
inductive OnEntryNotFound
  | throwException
  | returnNull
  deriving DecidableEq

/-- `CatalogType`, as far as a schema distinguishes them -/
inductive CatalogType
  | tableEntry
  | viewEntry
  | indexEntry
  | other
  deriving DecidableEq

/-- `CatalogTypeIsSupported` -/
def CatalogType.isSupported : CatalogType → Bool
  | .indexEntry | .tableEntry | .viewEntry => true
  | .other => false

/-- What a call requests from the server, and what it returns or throws. -/
structure Reply (α : Type) where
  requests : List String
  result : Except Error α

/-! ### Schemas -/

/-- The request of `LoadEntries` -/
def loadRequests {δ : Type} (set : IRCCatalogSet δ) (url : String) : List String :=
  if set.entries.entries ≠ [] then [] else [url]

namespace IRCSchemaSet

/-- What `LoadEntries` makes entries of, with their tables. -/
def listedEntries (ctx : CatalogContext) (catalog : IRCatalogConfig)
    (response : Except Error String) : Except Error (List (Except Error (String × IRCSchemaEntry))) := do
  let schemas ← getSchemas ctx catalog response
  return schemas.map fun schema => .ok (schema.schemaName, { schemaData := schema })

/-- `GetEntry` -/
def lookup (ctx : CatalogContext) (catalog : IRCatalogConfig) (server : String → Except Error String)
    (schemas : IRCCatalogSet IRCSchemaEntry) (name : String) :
    Except Error (Option (CatalogEntry IRCSchemaEntry)) × IRCCatalogSet IRCSchemaEntry :=
  let response := server (catalog.namespacesURL ctx.urlEncode)
  let found := IRCCatalogSet.getEntry (listedEntries ctx catalog response)
    (fun state _ => (.ok none, state)) () schemas name
  (found.1, found.2.2)

end IRCSchemaSet

namespace IRCSchemaEntry

/-- `GetCatalogSet` -/
def getCatalogSet (schema : IRCSchemaEntry) :
    CatalogType → Except Error (IRCCatalogSet ICTableEntry)
  | .tableEntry | .viewEntry => .ok schema.tables
  | _ => .error ⟨.internal, "Type not supported for GetCatalogSet"⟩

/-- `GetEntry` -/
def getEntry (ctx : CatalogContext) (catalog : IRCatalog) (server : String → Except Error String)
    (schema : CatalogEntry IRCSchemaEntry) (type : CatalogType) (name : String) :
    Reply (Option (CatalogEntry ICTableEntry)) × IRCatalog × IRCCatalogSet ICTableEntry :=
  if type.isSupported = false then (⟨[], .ok none⟩, catalog, schema.data.tables)
  else
    match schema.data.getCatalogSet type with
    | .error e => (⟨[], .error e⟩, catalog, schema.data.tables)
    | .ok tables =>
      let url := catalog.config.tablesURL ctx.urlEncode schema.name
      let load := ICTableSet.listed ctx catalog.config schema.name (server url)
      let found := IRCCatalogSet.getEntry load (ICTableSet.fillEntry ctx schema.name server) catalog
        tables name
      (⟨loadRequests tables url ++
        ICTableSet.metadataRequests ctx catalog schema.name load tables name, found.1⟩, found.2)

/-- `Scan` -/
def scan (ctx : CatalogContext) (catalog : IRCatalogConfig) (server : String → Except Error String)
    (schema : CatalogEntry IRCSchemaEntry) (type : CatalogType) :
    Reply (List (CatalogEntry ICTableEntry)) × IRCCatalogSet ICTableEntry :=
  if type.isSupported = false then (⟨[], .ok []⟩, schema.data.tables)
  else
    match schema.data.getCatalogSet type with
    | .error e => (⟨[], .error e⟩, schema.data.tables)
    | .ok tables =>
      let url := catalog.tablesURL ctx.urlEncode schema.name
      let found := IRCCatalogSet.scan (ICTableSet.listed ctx catalog schema.name (server url)) tables
      (⟨loadRequests tables url, found.1⟩, found.2)

end IRCSchemaEntry

namespace AttachedCatalog

/-! ### Calls -/

/-- The end of `GetSchema`, for the name of a schema. -/
def namedSchema (ctx : CatalogContext) (catalog : IRCatalogConfig)
    (server : String → Except Error String) (ifNotFound : OnEntryNotFound)
    (schemas : IRCCatalogSet IRCSchemaEntry) (name : String) :
    Reply (Option (CatalogEntry IRCSchemaEntry)) × IRCCatalogSet IRCSchemaEntry :=
  let requests := loadRequests schemas (catalog.namespacesURL ctx.urlEncode)
  match IRCSchemaSet.lookup ctx catalog server schemas name with
  | (.ok none, schemas) =>
    if ifNotFound ≠ .returnNull then
      (⟨requests, .error ⟨.binder, "Schema with name \"" ++ name ++ "\" not found"⟩⟩, schemas)
    else (⟨requests, .ok none⟩, schemas)
  | (result, schemas) => (⟨requests, result⟩, schemas)

/-- `GetSchema`.  It would call itself without end if the default schema had the name `main`. -/
def getSchema (ctx : CatalogContext) (catalog : IRCatalogConfig) (defaultSchema : String)
    (server : String → Except Error String) (ifNotFound : OnEntryNotFound)
    (schemas : IRCCatalogSet IRCSchemaEntry) (name : String) :
    Reply (Option (CatalogEntry IRCSchemaEntry)) × IRCCatalogSet IRCSchemaEntry :=
  if name = "main" then
    if defaultSchema = "" then
      if ifNotFound = .returnNull then (⟨[], .ok none⟩, schemas)
      else
        (⟨[], .error ⟨.invalidInput, "Attempting to fetch the default schema - but no database was " ++
          "provided in the connection string"⟩⟩, schemas)
    else if defaultSchema = "main" then
      (⟨[], .error ⟨.undefined, "GetSchema calls itself without end"⟩⟩, schemas)
    else namedSchema ctx catalog server ifNotFound schemas defaultSchema
  else namedSchema ctx catalog server ifNotFound schemas name

/-- The tables of an entry of the set are these now. -/
def setTables (schemas : IRCCatalogSet IRCSchemaEntry) (schema : CatalogEntry IRCSchemaEntry)
    (tables : IRCCatalogSet ICTableEntry) : IRCCatalogSet IRCSchemaEntry :=
  { schemas with
    entries := schemas.entries.insert schema.name
      { schema with data := { schema.data with tables } } }

/-- A call, with what the server answers to the URLs that are requested.  The tables of a schema are
reached through `GetSchema`, and the clock is read when metadata is looked up in the cache. -/
inductive Call
  | getSchema (server : String → Except Error String) (ifNotFound : OnEntryNotFound) (name : String)
  | scanSchemas (server : String → Except Error String)
  | getEntry (server : String → Except Error String) (ifNotFound : OnEntryNotFound)
      (schema : String) (type : CatalogType) (name : String)
  | scan (server : String → Except Error String) (ifNotFound : OnEntryNotFound) (schema : String)
      (type : CatalogType)
  | getTableMetadataCached (server : String → Except Error String) (now later : ℤ)
      (schema table : String)
  | clearCache

/-- The readings of the clock. -/
def Call.times : Call → List ℤ
  | .getTableMetadataCached _ now later .. => [now, later]
  | _ => []

/-- What a call answers. -/
inductive Answer
  | schema (reply : Reply (Option (CatalogEntry IRCSchemaEntry)))
  | schemas (reply : Reply (List (CatalogEntry IRCSchemaEntry)))
  | entry (reply : Reply (Option (CatalogEntry ICTableEntry)))
  | entries (reply : Reply (List (CatalogEntry ICTableEntry)))
  | metadata (reply : Reply String)
  | cleared

/-- What it requested from the server. -/
def Answer.requests : Answer → List String
  | .schema reply => reply.requests
  | .schemas reply => reply.requests
  | .entry reply => reply.requests
  | .entries reply => reply.requests
  | .metadata reply => reply.requests
  | .cleared => []

/-- `ClearCache` -/
def clearCache (s : AttachedCatalog) : AttachedCatalog :=
  { s with schemas := s.schemas.clearEntries }

/-- Perform a call. -/
def perform (ctx : CatalogContext) (s : AttachedCatalog) : Call → Answer × AttachedCatalog
  | .getSchema server ifNotFound name =>
    let found := getSchema ctx s.catalog.config s.defaultSchema server ifNotFound s.schemas name
    (.schema found.1, { s with schemas := found.2 })
  | .scanSchemas server =>
    let url := s.catalog.config.namespacesURL ctx.urlEncode
    let found := IRCCatalogSet.scan
      (IRCSchemaSet.listedEntries ctx s.catalog.config (server url)) s.schemas
    (.schemas ⟨loadRequests s.schemas url, found.1⟩, { s with schemas := found.2 })
  | .getEntry server ifNotFound schema type name =>
    match getSchema ctx s.catalog.config s.defaultSchema server ifNotFound s.schemas schema with
    | (⟨requests, .error e⟩, schemas) => (.entry ⟨requests, .error e⟩, { s with schemas })
    | (⟨requests, .ok none⟩, schemas) => (.entry ⟨requests, .ok none⟩, { s with schemas })
    | (⟨requests, .ok (some schema)⟩, schemas) =>
      let found := IRCSchemaEntry.getEntry ctx s.catalog server schema type name
      (.entry ⟨requests ++ found.1.requests, found.1.result⟩,
        { s with catalog := found.2.1, schemas := setTables schemas schema found.2.2 })
  | .scan server ifNotFound schema type =>
    match getSchema ctx s.catalog.config s.defaultSchema server ifNotFound s.schemas schema with
    | (⟨requests, .error e⟩, schemas) => (.entries ⟨requests, .error e⟩, { s with schemas })
    | (⟨requests, .ok none⟩, schemas) => (.entries ⟨requests, .ok []⟩, { s with schemas })
    | (⟨requests, .ok (some schema)⟩, schemas) =>
      let found := IRCSchemaEntry.scan ctx s.catalog.config server schema type
      (.entries ⟨requests ++ found.1.requests, found.1.result⟩,
        { s with schemas := setTables schemas schema found.2 })
  | .getTableMetadataCached server now later schema table =>
    let url := s.catalog.config.tableURL ctx.urlEncode schema table
    let found := s.catalog.getTableMetadataCached ctx now later schema table (server url)
    (.metadata ⟨if s.catalog.hasCachedValue now url then [] else [url], found.1⟩,
      { s with catalog := found.2 })
  | .clearCache => (.cleared, s.clearCache)

/-- The state after these calls. -/
def performAll (ctx : CatalogContext) (s : AttachedCatalog) (calls : List Call) : AttachedCatalog :=
  calls.foldl (fun s call => (s.perform ctx call).2) s

/-- What they answer. -/
def answers (ctx : CatalogContext) : AttachedCatalog → List Call → List Answer
  | _, [] => []
  | s, call :: calls => (s.perform ctx call).1 :: answers ctx (s.perform ctx call).2 calls

/-! ### The cache -/

end AttachedCatalog

namespace IRCatalog

/-- The catalog with one response more in its cache, if there is one. -/
def writing (catalog : IRCatalog) : Option (String × MetadataCacheValue) → IRCatalog
  | none => catalog
  | some (url, value) =>
    { catalog with metadataCache := catalog.metadataCache.insert url value }

@[simp] theorem writing_config (catalog : IRCatalog) (write : Option (String × MetadataCacheValue)) :
    (catalog.writing write).config = catalog.config := by
  rcases write with _ | ⟨url, value⟩ <;> rfl

/-- What this does in a catalog with the configuration does not depend on the cache, and it adds a
response under the URL of a table at most. -/
def Writes {α : Type} (ctx : CatalogContext) (config : IRCatalogConfig)
    (f : IRCatalog → α × IRCatalog) : Prop :=
  ∃ result write, (∀ p ∈ write, ∃ schema table, p.1 = config.tableURL ctx.urlEncode schema table) ∧
    ∀ catalog, catalog.config = config → f catalog = (result, catalog.writing write)

variable {ctx : CatalogContext} {config : IRCatalogConfig}

theorem Writes.none {α : Type} {f : IRCatalog → α × IRCatalog} (result : α)
    (h : ∀ catalog, catalog.config = config → f catalog = (result, catalog)) : Writes ctx config f :=
  ⟨result, Option.none, nofun, h⟩

theorem getTableMetadata_writes (ctx : CatalogContext) (config : IRCatalogConfig)
    (schema table : String) (response : Except Error String) :
    Writes ctx config fun catalog => catalog.getTableMetadata ctx schema table response := by
  cases response with
  | error e => exact .none (.error e) fun catalog _ => rfl
  | ok text =>
    rcases hexp : expiry ctx text with e | _ | t
    · refine .none (.error e) fun catalog _ => ?_
      simp only [getTableMetadata, setCachedValue, hexp]
    · refine .none (.ok text) fun catalog _ => ?_
      simp only [getTableMetadata, setCachedValue, hexp]
    · refine ⟨.ok text, some (config.tableURL ctx.urlEncode schema table, ⟨text, t⟩), ?_, ?_⟩
      · rintro p ⟨⟩
        exact ⟨schema, table, rfl⟩
      · rintro catalog rfl
        simp only [getTableMetadata, setCachedValue, hexp, writing]

end IRCatalog

namespace ICTableSet

open IRCatalog

variable (ctx : CatalogContext) (config : IRCatalogConfig) (schema : String)
  (server : String → Except Error String)

theorem getTableWithCredentials_writes (name : String) (response : Except Error String) :
    Writes ctx config fun catalog => getTableWithCredentials ctx catalog schema name response := by
  obtain ⟨result, write, hurl, hfetch⟩ := getTableMetadata_writes ctx config schema name response
  dsimp only at hfetch
  cases result with
  | error e =>
    refine ⟨.error e, write, hurl, fun catalog hconfig => ?_⟩
    simp only [getTableWithCredentials, hfetch catalog hconfig]
  | ok text =>
    refine ⟨apiResultToDoc ctx text >>= populateTableMetadata (createTable config schema name),
      write, hurl, ?_⟩
    rintro catalog rfl
    simp only [getTableWithCredentials, hfetch catalog rfl, writing_config]

theorem fetchEntry_writes (name : String) :
    Writes ctx config fun catalog => fetchEntry ctx catalog schema server name := by
  obtain ⟨result, write, hurl, htable⟩ := getTableWithCredentials_writes ctx config schema name
    (server (config.tableURL ctx.urlEncode schema name))
  dsimp only at htable
  cases result with
  | error e =>
    refine ⟨.error e, write, hurl, ?_⟩
    rintro catalog rfl
    simp only [fetchEntry, htable catalog rfl]
  | ok table =>
    refine ⟨createCatalogEntry ctx table, write, hurl, ?_⟩
    rintro catalog rfl
    simp only [fetchEntry, htable catalog rfl]

theorem fillEntry_writes (entry : CatalogEntry ICTableEntry) :
    Writes ctx config fun catalog => fillEntry ctx schema server catalog entry := by
  by_cases hfilled : entry.data.tableData.storageLocation ≠ ""
  · exact .none (.ok none) fun catalog _ => if_pos hfilled
  · obtain ⟨result, write, hurl, hfetch⟩ := fetchEntry_writes ctx config schema server entry.name
    dsimp only at hfetch
    refine ⟨result.map some, write, hurl, fun catalog hconfig => ?_⟩
    simp only [fillEntry, if_neg hfilled, hfetch catalog hconfig]
    cases result <;> rfl

/-- A lookup of a table. -/
theorem getEntry_writes (load : Except Error (List (Except Error (String × ICTableEntry))))
    (set : IRCCatalogSet ICTableEntry) (name : String) : ∃ result set' write,
      (∀ p ∈ write, ∃ schema table, p.1 = config.tableURL ctx.urlEncode schema table) ∧
      ∀ catalog, catalog.config = config →
        IRCCatalogSet.getEntry load (fillEntry ctx schema server) catalog set name =
          (result, catalog.writing write, set') := by
  rcases hload : set.loadEntries load with ⟨e | u, set'⟩
  · refine ⟨.error e, set', none, nofun, fun catalog _ => ?_⟩
    simp only [IRCCatalogSet.getEntry, hload, writing]
  · cases hfind : set'.entries.find? name with
    | none =>
      refine ⟨.ok none, set', none, nofun, fun catalog _ => ?_⟩
      simp only [IRCCatalogSet.getEntry, hload, hfind, writing]
    | some entry =>
      obtain ⟨result, write, hurl, hfill⟩ := fillEntry_writes ctx config schema server entry
      dsimp only at hfill
      rcases result with e | _ | ⟨n, data⟩
      · refine ⟨.error e, set', write, hurl, fun catalog hconfig => ?_⟩
        simp only [IRCCatalogSet.getEntry, hload, hfind, hfill catalog hconfig]
      · refine ⟨.ok (some entry), set', write, hurl, fun catalog hconfig => ?_⟩
        simp only [IRCCatalogSet.getEntry, hload, hfind, hfill catalog hconfig]
      · refine ⟨.ok (some ⟨set'.nextAddress, n, data⟩),
          { entries := set'.entries.insert name ⟨set'.nextAddress, n, data⟩
            nextAddress := set'.nextAddress + 1 }, write, hurl, fun catalog hconfig => ?_⟩
        simp only [IRCCatalogSet.getEntry, hload, hfind, hfill catalog hconfig]

end ICTableSet

/-- A lookup in a schema. -/
theorem IRCSchemaEntry.getEntry_writes (ctx : CatalogContext) (config : IRCatalogConfig)
    (server : String → Except Error String) (schema : CatalogEntry IRCSchemaEntry)
    (type : CatalogType) (name : String) : ∃ reply tables' write,
      (∀ p ∈ write, ∃ schema table, p.1 = config.tableURL ctx.urlEncode schema table) ∧
      ∀ catalog, catalog.config = config →
        IRCSchemaEntry.getEntry ctx catalog server schema type name =
          (reply, catalog.writing write, tables') := by
  by_cases hsupported : type.isSupported = false
  · exact ⟨⟨[], .ok none⟩, schema.data.tables, none, nofun, fun catalog _ => if_pos hsupported⟩
  · cases hset : schema.data.getCatalogSet type with
    | error e =>
      refine ⟨⟨[], .error e⟩, schema.data.tables, none, nofun, fun catalog _ => ?_⟩
      simp only [IRCSchemaEntry.getEntry, if_neg hsupported, hset, IRCatalog.writing]
    | ok tables =>
      set url := config.tablesURL ctx.urlEncode schema.name with hurl
      set load := ICTableSet.listed ctx config schema.name (server url) with hload
      obtain ⟨result, tables', write, hwrite, hget⟩ :=
        ICTableSet.getEntry_writes ctx config schema.name server load tables name
      refine ⟨⟨loadRequests tables url ++
        ICTableSet.metadataRequests ctx { config } schema.name load tables name, result⟩, tables',
        write, hwrite, ?_⟩
      rintro catalog rfl
      simp only [IRCSchemaEntry.getEntry, if_neg hsupported, hset]
      rw [← hurl, ← hload, hget catalog rfl]
      rfl

namespace AttachedCatalog

open IRCatalog

variable (ctx : CatalogContext)

/-- **A call** that does not read the clock goes by the server, the configuration and the sets. -/
theorem perform_writes (config : IRCatalogConfig) (schemas : IRCCatalogSet IRCSchemaEntry)
    (defaultSchema : String) {call : Call} (h : call.times = []) : ∃ answer schemas' write,
      (∀ p ∈ write, ∃ schema table, p.1 = config.tableURL ctx.urlEncode schema table) ∧
      ∀ catalog, catalog.config = config →
        perform ctx ⟨catalog, schemas, defaultSchema⟩ call =
          (answer, ⟨catalog.writing write, schemas', defaultSchema⟩) := by
  -- what is done where the cache is empty is done anywhere
  set s : AttachedCatalog := ⟨{ config }, schemas, defaultSchema⟩ with hs
  cases call with
  | getSchema server ifNotFound name =>
    refine ⟨(perform ctx s (.getSchema server ifNotFound name)).1,
      (perform ctx s (.getSchema server ifNotFound name)).2.schemas, none, nofun, ?_⟩
    rintro catalog rfl
    rfl
  | scanSchemas server =>
    refine ⟨(perform ctx s (.scanSchemas server)).1,
      (perform ctx s (.scanSchemas server)).2.schemas, none, nofun, ?_⟩
    rintro catalog rfl
    rfl
  | getEntry server ifNotFound schema type name =>
    rcases hschema : getSchema ctx config defaultSchema server ifNotFound schemas schema with
      ⟨⟨requests, e | _ | entry⟩, schemas'⟩
    · refine ⟨.entry ⟨requests, .error e⟩, schemas', none, nofun, ?_⟩
      rintro catalog rfl
      simp only [perform, hschema, writing]
    · refine ⟨.entry ⟨requests, .ok none⟩, schemas', none, nofun, ?_⟩
      rintro catalog rfl
      simp only [perform, hschema, writing]
    · obtain ⟨reply, tables', write, hurl, hget⟩ :=
        IRCSchemaEntry.getEntry_writes ctx config server entry type name
      refine ⟨.entry ⟨requests ++ reply.requests, reply.result⟩, setTables schemas' entry tables',
        write, hurl, ?_⟩
      rintro catalog rfl
      simp only [perform, hschema, hget catalog rfl]
  | scan server ifNotFound schema type =>
    refine ⟨(perform ctx s (.scan server ifNotFound schema type)).1,
      (perform ctx s (.scan server ifNotFound schema type)).2.schemas, none, nofun, ?_⟩
    rintro catalog rfl
    rcases hschema : getSchema ctx catalog.config defaultSchema server ifNotFound schemas schema with
      ⟨⟨requests, e | _ | entry⟩, schemas'⟩
    all_goals
      simp only [perform, hs, hschema]
      rfl
  | getTableMetadataCached server now later schema table => cases h
  | clearCache =>
    refine ⟨(perform ctx s .clearCache).1, (perform ctx s .clearCache).2.schemas, none, nofun, ?_⟩
    rintro catalog rfl
    rfl

/-- A lookup of metadata leaves the sets as they are. -/
theorem lookup_writes (s : AttachedCatalog) (server : String → Except Error String) (now later : ℤ)
    (schema table : String) : ∃ write,
      (∀ p ∈ write, ∃ schema table, p.1 = s.catalog.config.tableURL ctx.urlEncode schema table) ∧
      (s.perform ctx (.getTableMetadataCached server now later schema table)).2 =
        { s with catalog := s.catalog.writing write } := by
  by_cases hhit : s.catalog.hasCachedValue now
      (s.catalog.config.tableURL ctx.urlEncode schema table) = true
  · refine ⟨none, nofun, ?_⟩
    simp only [perform, getTableMetadataCached, if_pos hhit, writing]
  · obtain ⟨result, write, hurl, hfetch⟩ := getTableMetadata_writes ctx s.catalog.config schema table
      (server (s.catalog.config.tableURL ctx.urlEncode schema table))
    refine ⟨write, hurl, ?_⟩
    simp only [perform, getTableMetadataCached, if_neg hhit, hfetch s.catalog rfl]

/-- What is cached is cached under the URL of a table. -/
def Cached (s : AttachedCatalog) : Prop :=
  ∀ url value, s.catalog.metadataCache.find? url = some value →
    ∃ schema table, url = s.catalog.config.tableURL ctx.urlEncode schema table

theorem Cached.writing {ctx : CatalogContext} {s s' : AttachedCatalog} (h : s.Cached ctx)
    {write : Option (String × MetadataCacheValue)}
    (hurl : ∀ p ∈ write, ∃ schema table, p.1 = s.catalog.config.tableURL ctx.urlEncode schema table)
    (hs' : s'.catalog = s.catalog.writing write) : s'.Cached ctx := by
  intro url value hvalue
  rw [hs', writing_config]
  rw [hs'] at hvalue
  cases write with
  | none => exact h url value hvalue
  | some p =>
    replace hvalue : (s.catalog.metadataCache.insert p.1 p.2).find? url = some value := hvalue
    rw [NormMap.find?_insert, id_eq, id_eq] at hvalue
    by_cases heq : p.1 = url
    · exact heq ▸ hurl p rfl
    · rw [if_neg heq] at hvalue
      exact h url value hvalue

/-- **Every call** caches under the URL of a table. -/
theorem Cached.perform {ctx : CatalogContext} {s : AttachedCatalog} (h : s.Cached ctx) (call : Call) :
    (s.perform ctx call).2.Cached ctx := by
  by_cases htimes : call.times = []
  · obtain ⟨answer, schemas', write, hurl, hperform⟩ :=
      perform_writes ctx s.catalog.config s.schemas s.defaultSchema htimes
    have hcatalog : (s.perform ctx call).2.catalog = s.catalog.writing write :=
      congrArg (fun out => out.2.catalog) (hperform s.catalog rfl)
    exact h.writing hurl hcatalog
  · cases call with
    | getTableMetadataCached server now later schema table =>
      obtain ⟨write, hurl, hperform⟩ := lookup_writes ctx s server now later schema table
      exact h.writing hurl (congrArg AttachedCatalog.catalog hperform)
    | getSchema | scanSchemas | getEntry | scan | clearCache => exact absurd rfl htimes

theorem performAll_concat (s : AttachedCatalog) (calls : List Call) (call : Call) :
    s.performAll ctx (calls ++ [call]) = ((s.performAll ctx calls).perform ctx call).2 :=
  List.foldl_concat _ _ _ _

/-- So does every run from an empty cache. -/
theorem performAll_cached {s : AttachedCatalog} (hs : s.catalog.metadataCache = .empty)
    (calls : List Call) : (s.performAll ctx calls).Cached ctx := by
  induction calls using List.reverseRecOn with
  | nil =>
    intro url value hvalue
    replace hvalue : s.catalog.metadataCache.find? url = some value := hvalue
    rw [hs, NormMap.find?_empty] at hvalue
    cases hvalue
  | append_singleton calls call ih =>
    rw [performAll_concat]
    exact ih.perform call

end AttachedCatalog

end DuckIceberg
