import DuckIceberg.Catalog.CatalogApi
import DuckIceberg.Catalog.CatalogSet

/-!
# Table sets and schema sets

`ICTableSet` and `IRCSchemaSet`: what the server lists makes the entries, and a table entry is filled
when it is looked up.

* `fetchEntry_congr`: what is fetched for a table does not depend on the cache;
* `fillEntry_fills`: a filled entry holds what was fetched under its name;
* `listed_reachable`: so what is listed is reachable under its name, up to case.
-/

namespace DuckIceberg

open Strings Json IcebergUtils ICUtils IRCAPI IRCCatalogSet

/-! ### Tables -/

/-- The data of an `ICTableEntry`: `table_data` and the columns of the table. -/
structure ICTableEntry where
  tableData : IRCAPITable
  columns : List (String × LogicalType)
  deriving DecidableEq, Repr

namespace ICTableSet

/-- `_CreateCatalogEntry`, with the name of the entry -/
def createCatalogEntry (ctx : CatalogContext) (table : IRCAPITable) :
    Except Error (String × ICTableEntry) := do
  let columns ← createColumns ctx table
  return (table.name, ⟨table, columns⟩)

/-- What `LoadEntries` makes entries of, when the server answers with `response`. -/
def listed (ctx : CatalogContext) (catalog : IRCatalogConfig) (schema : String)
    (response : Except Error String) : Except Error (List (Except Error (String × ICTableEntry))) := do
  let tables ← getTables ctx catalog schema response
  return tables.map (createCatalogEntry ctx)

/-- The entry that `FillEntry` fetches for a table.  `server` answers a request by its URL. -/
def fetchEntry (ctx : CatalogContext) (catalog : IRCatalog) (schema : String)
    (server : String → Except Error String) (name : String) :
    Except Error (String × ICTableEntry) × IRCatalog :=
  match getTableWithCredentials ctx catalog schema name
    (server (catalog.config.tableURL ctx.urlEncode schema name)) with
  | (.error e, catalog) => (.error e, catalog)
  | (.ok table, catalog) => (createCatalogEntry ctx table, catalog)

/-- `FillEntry` -/
def fillEntry (ctx : CatalogContext) (schema : String) (server : String → Except Error String) :
    FillEntry IRCatalog ICTableEntry := fun catalog entry =>
  if entry.data.tableData.storageLocation ≠ "" then (.ok none, catalog)
  else
    match fetchEntry ctx catalog schema server entry.name with
    | (.error e, catalog) => (.error e, catalog)
    | (.ok entry, catalog) => (.ok (some entry), catalog)

end ICTableSet

/-! ### Schemas -/

namespace IRCSchemaSet

/-- What `LoadEntries` makes entries of, when the server answers with `response`. -/
def listed (ctx : CatalogContext) (catalog : IRCatalogConfig) (response : Except Error String) :
    Except Error (List (Except Error (String × IRCAPISchema))) := do
  let schemas ← getSchemas ctx catalog response
  return schemas.map fun schema => .ok (schema.schemaName, schema)

/-- `FillEntry`, which has nothing to do -/
def fillEntry (_ : Unit) : FillEntry Unit IRCAPISchema := fun state _ => (.ok none, state)

end IRCSchemaSet

/-! ### What is listed -/

theorem getTables_eq {ctx : CatalogContext} {catalog : IRCatalogConfig} {schema : String}
    {response : Except Error String} {tables : List IRCAPITable}
    (h : getTables ctx catalog schema response = .ok tables) :
    tables = (tables.map IRCAPITable.name).map (getTable catalog schema) := by
  unfold getTables at h
  obtain ⟨apiResult, -, h⟩ := bind_eq_ok.1 h
  obtain ⟨root, -, h⟩ := bind_eq_ok.1 h
  rw [List.map_map]
  refine (List.map_id _).symm.trans (List.map_congr_left fun table htable => ?_)
  obtain ⟨value, -, hvalue⟩ := exists_of_mem_mapM h htable
  obtain ⟨name, -, hname⟩ := bind_eq_ok.1 hvalue
  cases hname
  rfl

theorem getSchemas_eq {ctx : CatalogContext} {catalog : IRCatalogConfig}
    {response : Except Error String} {schemas : List IRCAPISchema}
    (h : getSchemas ctx catalog response = .ok schemas) :
    schemas = (schemas.map IRCAPISchema.schemaName).map fun n => ⟨n, catalog.name⟩ := by
  unfold getSchemas at h
  obtain ⟨apiResult, -, h⟩ := bind_eq_ok.1 h
  obtain ⟨root, -, h⟩ := bind_eq_ok.1 h
  rw [List.map_map]
  refine (List.map_id _).symm.trans (List.map_congr_left fun schema hschema => ?_)
  obtain ⟨value, -, hvalue⟩ := exists_of_mem_mapM h hschema
  obtain ⟨name, -, hname⟩ := bind_eq_ok.1 hvalue
  cases hname
  rfl

namespace ICTableSet

/-- The entry of a table that is listed, before it is filled. -/
def listedEntry (catalog : IRCatalogConfig) (schema name : String) : ICTableEntry :=
  ⟨getTable catalog schema name, [("__", .simple .integer)]⟩

theorem createCatalogEntry_getTable (ctx : CatalogContext) (catalog : IRCatalogConfig)
    (schema name : String) : createCatalogEntry ctx (getTable catalog schema name) =
      .ok (name, listedEntry catalog schema name) := by
  have hint : primitiveType (String.ofList "int".toList) = some .integer := by decide
  have htype : typeToLogicalType ctx.castUInt8 "int" = .ok (.simple .integer) := by
    rw [typeToLogicalType, typeToLogicalTypeFuel, hint]
  have hcolumn : createColumnDefinition ctx
      { name := "__", typeText := "int", precision := minusOne, scale := minusOne, position := 0 } =
      .ok ("__", .simple .integer) := by
    rw [createColumnDefinition, htype]
    rfl
  have hcolumns : createColumns ctx (getTable catalog schema name) =
      .ok [("__", .simple .integer)] := by
    rw [createColumns, getTable, List.mapM_cons, hcolumn]
    rfl
  rw [createCatalogEntry, hcolumns]
  rfl

theorem listed_eq {ctx : CatalogContext} {catalog : IRCatalogConfig} {schema : String}
    {response : Except Error String} {tables : List IRCAPITable}
    (h : getTables ctx catalog schema response = .ok tables) :
    listed ctx catalog schema response =
      .ok (entriesOf (listedEntry catalog schema) (tables.map IRCAPITable.name)) := by
  have hmap : tables.map (createCatalogEntry ctx) =
      entriesOf (listedEntry catalog schema) (tables.map IRCAPITable.name) := by
    conv_lhs => rw [getTables_eq h]
    rw [entriesOf, List.map_map]
    exact List.map_congr_left fun name _ => createCatalogEntry_getTable ctx catalog schema name
  rw [listed, h, ← hmap]
  rfl

/-! ### What is fetched -/

variable {ctx : CatalogContext} {schema : String} {server : String → Except Error String}

theorem getTableWithCredentials_fst (catalog : IRCatalog) (name : String)
    (response : Except Error String) :
    (getTableWithCredentials ctx catalog schema name response).1 = (do
      let result ← (catalog.getTableMetadata ctx schema name response).1
      let metadataRoot ← apiResultToDoc ctx result
      populateTableMetadata (createTable catalog.config schema name) metadataRoot) := by
  have hconfig : (catalog.getTableMetadata ctx schema name response).2.config = catalog.config :=
    IRCatalog.getTableMetadata_config catalog schema name response
  rw [getTableWithCredentials]
  generalize catalog.getTableMetadata ctx schema name response = fetched at hconfig ⊢
  obtain ⟨e | result, catalog'⟩ := fetched
  · rfl
  · dsimp only at hconfig ⊢
    rw [hconfig]
    rfl

theorem getTableWithCredentials_snd (catalog : IRCatalog) (name : String)
    (response : Except Error String) :
    (getTableWithCredentials ctx catalog schema name response).2 =
      (catalog.getTableMetadata ctx schema name response).2 := by
  rw [getTableWithCredentials]
  rcases catalog.getTableMetadata ctx schema name response with ⟨e | result, catalog'⟩ <;> rfl

theorem fetchEntry_fst (catalog : IRCatalog) (name : String) :
    (fetchEntry ctx catalog schema server name).1 = (do
      let table ← (getTableWithCredentials ctx catalog schema name
        (server (catalog.config.tableURL ctx.urlEncode schema name))).1
      createCatalogEntry ctx table) := by
  rw [fetchEntry]
  rcases getTableWithCredentials ctx catalog schema name _ with ⟨e | table, catalog'⟩ <;> rfl

/-- What is fetched for a table does not depend on the cache. -/
theorem fetchEntry_congr {catalog catalog' : IRCatalog} (h : catalog'.config = catalog.config)
    (name : String) :
    (fetchEntry ctx catalog' schema server name).1 = (fetchEntry ctx catalog schema server name).1 := by
  rw [fetchEntry_fst, fetchEntry_fst, getTableWithCredentials_fst, getTableWithCredentials_fst, h,
    IRCatalog.getTableMetadata_congr catalog catalog']

theorem fetchEntry_config (catalog : IRCatalog) (name : String) :
    (fetchEntry ctx catalog schema server name).2.config = catalog.config := by
  have hsnd : (fetchEntry ctx catalog schema server name).2 =
      (getTableWithCredentials ctx catalog schema name
        (server (catalog.config.tableURL ctx.urlEncode schema name))).2 := by
    rw [fetchEntry]
    rcases getTableWithCredentials ctx catalog schema name _ with ⟨e | table, catalog'⟩ <;> rfl
  rw [hsnd, getTableWithCredentials_snd, IRCatalog.getTableMetadata_config]

/-- The entry that is fetched has the name that is asked for. -/
theorem fetchEntry_name {catalog : IRCatalog} {name : String} {entry : String × ICTableEntry}
    (h : (fetchEntry ctx catalog schema server name).1 = .ok entry) : entry.1 = name := by
  rw [fetchEntry_fst, getTableWithCredentials_fst] at h
  obtain ⟨table, htable, h⟩ := bind_eq_ok.1 h
  obtain ⟨columns, -, h⟩ := bind_eq_ok.1 h
  obtain ⟨result, -, htable⟩ := bind_eq_ok.1 htable
  obtain ⟨metadataRoot, -, htable⟩ := bind_eq_ok.1 htable
  have hname : table.name = name := by
    unfold populateTableMetadata at htable
    obtain ⟨storageLocation, -, htable⟩ := bind_eq_ok.1 htable
    obtain ⟨currentSchemaId, -, htable⟩ := bind_eq_ok.1 htable
    obtain ⟨found, -, htable⟩ := bind_eq_ok.1 htable
    split_ifs at htable
    · cases htable
    · cases htable
      rfl
  cases h
  exact hname

/-- What is fetched for a name, in a catalog with this configuration. -/
def fetches (ctx : CatalogContext) (catalog : IRCatalog) (schema : String)
    (server : String → Except Error String) (name : String) : Except Error ICTableEntry :=
  (fetchEntry ctx catalog schema server name).1.map Prod.snd

/-- What the data of an entry may be: it was fetched under this name, unless it is not filled yet. -/
def Filled (ctx : CatalogContext) (catalog : IRCatalog) (schema : String)
    (servers : List (String → Except Error String)) (name : String) (data : ICTableEntry) : Prop :=
  data.tableData.storageLocation ≠ "" →
    ∃ server ∈ servers, fetches ctx catalog schema server name = .ok data

theorem fillEntry_fills (catalog state : IRCatalog) (h : state.config = catalog.config)
    (servers : List (String → Except Error String)) (entry : CatalogEntry ICTableEntry)
    (hentry : Filled ctx catalog schema servers entry.name entry.data) :
    Fills (fetches ctx catalog schema) (Filled ctx catalog schema) servers server entry
      (fillEntry ctx schema server state entry).1 := by
  rw [fillEntry]
  by_cases hfilled : entry.data.tableData.storageLocation ≠ ""
  · rw [if_pos hfilled]
    obtain ⟨server', hserver', hfetched⟩ := hentry hfilled
    exact ⟨server', List.mem_append_left _ hserver', hfetched⟩
  · rw [if_neg hfilled]
    have hcongr : (fetchEntry ctx state schema server entry.name).1 =
        (fetchEntry ctx catalog schema server entry.name).1 := fetchEntry_congr h entry.name
    rcases hrun : fetchEntry ctx state schema server entry.name with ⟨e | ⟨name, data⟩, state'⟩
    · rw [hrun] at hcongr
      dsimp only
      rw [Fills, fetches, ← hcongr]
      rfl
    · rw [hrun] at hcongr
      have hname : name = entry.name := fetchEntry_name hcongr.symm
      have hfetches : fetches ctx catalog schema server entry.name = .ok data := by
        rw [fetches, ← hcongr]
        rfl
      dsimp only
      rw [Fills, hname]
      exact ⟨rfl, fun _ => ⟨server, List.mem_append_right _ List.mem_cons_self, hfetches⟩, hfetches⟩

theorem fillEntry_config (catalog : IRCatalog) (entry : CatalogEntry ICTableEntry) :
    (fillEntry ctx schema server catalog entry).2.config = catalog.config := by
  rw [fillEntry]
  by_cases hfilled : entry.data.tableData.storageLocation ≠ ""
  · rw [if_pos hfilled]
  · have hconfig : (fetchEntry ctx catalog schema server entry.name).2.config = catalog.config :=
      fetchEntry_config catalog entry.name
    rw [if_neg hfilled, ← hconfig]
    rcases fetchEntry ctx catalog schema server entry.name with ⟨e | entry, catalog'⟩ <;> rfl

/-- **Tables** that are listed are reachable. -/
theorem tables_reachable {catalog : IRCatalog} {response : Except Error String}
    {tables : List IRCAPITable} (h : getTables ctx catalog.config schema response = .ok tables)
    (hne : ∀ table ∈ tables, table.name ≠ "") :
    Reachable (listed ctx catalog.config schema response) (fillEntry ctx schema)
      (fetches ctx catalog schema) (tables.map IRCAPITable.name) catalog := by
  rw [listed_eq h]
  refine entries_reachable (I := fun state => state.config = catalog.config)
    (R := Filled ctx catalog schema) (List.forall_mem_map.2 hne) ?_ rfl ?_ ?_ ?_
  · exact fun n hfilled => absurd rfl hfilled
  · intro servers others name data hdata hfilled
    obtain ⟨server, hserver, hfetched⟩ := hdata hfilled
    exact ⟨server, List.mem_append_left _ hserver, hfetched⟩
  · exact fun server state entry hstate => (fillEntry_config state entry).trans hstate
  · exact fun servers server state hstate entry => fillEntry_fills catalog state hstate servers entry

end ICTableSet

namespace IRCSchemaSet

theorem listed_eq {ctx : CatalogContext} {catalog : IRCatalogConfig}
    {response : Except Error String} {schemas : List IRCAPISchema}
    (h : getSchemas ctx catalog response = .ok schemas) :
    listed ctx catalog response =
      .ok (entriesOf (fun n => ⟨n, catalog.name⟩) (schemas.map IRCAPISchema.schemaName)) := by
  have hmap : schemas.map (fun schema => .ok (schema.schemaName, schema)) =
      entriesOf (fun n => ⟨n, catalog.name⟩) (schemas.map IRCAPISchema.schemaName) := by
    conv_lhs => rw [getSchemas_eq h]
    rw [entriesOf, List.map_map]
    rfl
  rw [listed, h, ← hmap]
  rfl

/-- **Schemas** that are listed are reachable. -/
theorem schemas_reachable {ctx : CatalogContext} {catalog : IRCatalogConfig}
    {response : Except Error String} {schemas : List IRCAPISchema}
    (h : getSchemas ctx catalog response = .ok schemas)
    (hne : ∀ schema ∈ schemas, schema.schemaName ≠ "") :
    Reachable (listed ctx catalog response) fillEntry (fun _ n => .ok ⟨n, catalog.name⟩)
      (schemas.map IRCAPISchema.schemaName) () := by
  rw [listed_eq h]
  refine entries_reachable (I := fun _ => True) (R := fun _ n data => data = ⟨n, catalog.name⟩)
    (List.forall_mem_map.2 hne) (fun _ => rfl) trivial (fun _ _ _ _ h => h) (fun _ _ _ h => h) ?_
  intro servers server state _ entry hdata
  exact ⟨(), List.mem_append_right _ List.mem_cons_self, congrArg Except.ok hdata.symm⟩

end IRCSchemaSet

/-! ### Tables and schemas -/

/-- **What the server lists** is reachable under its name, where names that are equal up to case count
as one; a list of names of which no two are equal up to case is reachable as it is. -/
theorem listed_reachable (ctx : CatalogContext) (catalog : IRCatalog) (schema : String) :
    (∀ response tables, getTables ctx catalog.config schema response = .ok tables →
      (∀ table ∈ tables, table.name ≠ "") →
      Reachable (ICTableSet.listed ctx catalog.config schema response)
        (ICTableSet.fillEntry ctx schema) (ICTableSet.fetches ctx catalog schema)
        (tables.map IRCAPITable.name) catalog) ∧
    (∀ response schemas, getSchemas ctx catalog.config response = .ok schemas →
      (∀ schema ∈ schemas, schema.schemaName ≠ "") →
      Reachable (IRCSchemaSet.listed ctx catalog.config response) IRCSchemaSet.fillEntry
        (fun _ n => .ok ⟨n, catalog.config.name⟩) (schemas.map IRCAPISchema.schemaName) ()) ∧
    ∀ names : List String, names.Pairwise (fun a b => ¬ ciEquals a b) →
      NormMap.firsts lower names = names :=
  ⟨fun _ _ h hne => ICTableSet.tables_reachable h hne,
    fun _ _ h hne => IRCSchemaSet.schemas_reachable h hne,
    fun _ h => NormMap.firsts_eq_self h⟩

/-- The answer of a server that lists two tables. -/
def tablesText : String :=
  "\x7b\"identifiers\": [\x7b\"name\": \"a\"\x7d, \x7b\"name\": \"b\"\x7d]\x7d"

/-- The answer of a server that lists two tables whose names differ in their case. -/
def caseText : String :=
  "\x7b\"identifiers\": [\x7b\"name\": \"a\"\x7d, \x7b\"name\": \"A\"\x7d]\x7d"

/-- The answer of a server that lists two namespaces. -/
def namespacesText : String :=
  "\x7b\"namespaces\": [[\"s\"], [\"t\"]]\x7d"

/-- A session that reads these answers. -/
def listingContext : CatalogContext where
  urlEncode := id
  yyjsonRead text :=
    if text = tablesText then
      some (.obj [("identifiers", .arr [.obj [("name", .str "a")], .obj [("name", .str "b")]])])
    else if text = caseText then
      some (.obj [("identifiers", .arr [.obj [("name", .str "a")], .obj [("name", .str "A")]])])
    else if text = namespacesText then
      some (.obj [("namespaces", .arr [.arr [.str "s"], .arr [.str "t"]])])
    else none
  castUInt8 := readUInt8

theorem listed_reachable_two :
    Reachable (ICTableSet.listed listingContext IRCatalogConfig.polaris "s" (.ok tablesText))
        (ICTableSet.fillEntry listingContext "s")
        (ICTableSet.fetches listingContext ⟨IRCatalogConfig.polaris, .empty⟩ "s") ["a", "b"]
        ⟨IRCatalogConfig.polaris, .empty⟩ ∧
      Reachable (IRCSchemaSet.listed listingContext IRCatalogConfig.polaris (.ok namespacesText))
        IRCSchemaSet.fillEntry (fun _ n => .ok ⟨n, "ice"⟩) ["s", "t"] () ∧
      NormMap.firsts lower ["a", "b"] = ["a", "b"] := by
  obtain ⟨htables, hschemas, hfirsts⟩ :=
    listed_reachable listingContext ⟨IRCatalogConfig.polaris, .empty⟩ "s"
  refine ⟨?_, ?_, hfirsts _ (by decide)⟩
  · have hlisted : getTables listingContext IRCatalogConfig.polaris "s" (.ok tablesText) =
        .ok (["a", "b"].map (getTable IRCatalogConfig.polaris "s")) := by decide +kernel
    exact htables _ _ hlisted (by decide)
  · have hlisted : getSchemas listingContext IRCatalogConfig.polaris (.ok namespacesText) =
        .ok [⟨"s", "ice"⟩, ⟨"t", "ice"⟩] := by decide +kernel
    exact hschemas _ _ hlisted (by decide)

/-- The set in which an entry for the first of these tables was created. -/
def caseSet : IRCCatalogSet ICTableEntry :=
  (createEntries {} [.ok ("a", ICTableSet.listedEntry IRCatalogConfig.polaris "s" "a")]).2

/-- Of two tables whose names differ in their case, the set holds the first, and the entry that is made
for the other is not in it. -/
theorem not_reachable_case :
    getTables listingContext IRCatalogConfig.polaris "s" (.ok caseText) =
        .ok (["a", "A"].map (getTable IRCatalogConfig.polaris "s")) ∧
      (loadEntries {} (ICTableSet.listed listingContext IRCatalogConfig.polaris "s"
        (.ok caseText))).2.entries.entries.map (fun e => e.2.name) = ["a"] ∧
      ∀ e ∈ (caseSet.createEntry "A"
          (ICTableSet.listedEntry IRCatalogConfig.polaris "s" "A")).2.entries.entries,
        (caseSet.createEntry "A" (ICTableSet.listedEntry IRCatalogConfig.polaris "s" "A")).1 ≠
          .ok e.2.address :=
  ⟨by decide +kernel, by decide +kernel, by decide +kernel⟩

end DuckIceberg
