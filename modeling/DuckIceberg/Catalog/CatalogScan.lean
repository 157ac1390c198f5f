import DuckIceberg.Catalog.FreshEntries
import DuckIceberg.Catalog.TableCredentials
import DuckIceberg.NamedParameters
import DuckIceberg.TimeTravel

/-!
# Scans of tables of a catalog

A query on a table of an attached catalog looks the table up, and `GetScanFunction` then binds
`iceberg_scan` on its storage location, without named parameters.

* `boundScan_eq_ok`: what is bound then;
* `Held.query`: a query of a table that is held binds the location that is held;
* `query_rows`: the rows that a query returns are those of the table that a server has named since the
  caches were cleared, and stay so until they are cleared again.
-/

namespace DuckIceberg

open Strings Json IcebergUtils ICUtils IRCAPI IcebergMultiFileList

/-! ### The bind of `iceberg_scan` -/

/-- `IcebergMultiFileReader::CreateFileList` -/
def createFileList (options : IcebergOptions) : List String → Except Error IcebergMultiFileList
  | [path] => .ok (.ofPath path options)
  | _ => .error ⟨.binder, "'iceberg_scan' only supports single path as input"⟩

/-- The bind of `iceberg_scan`, up to the columns: `ParseOption` for each of the named parameters, and
`CreateFileList`.  `base` is `MultiFileReader::ParseOption`. -/
def bindIcebergScan (base : String → ParameterValue → Except Error Bool) (inputs : List String)
    (parameters : List (String × ParameterValue)) : Except Error IcebergMultiFileList := do
  createFileList (← parseOptions base parameters) inputs

namespace AttachedCatalog

/-! ### Queries -/

/-- A query of a table, with what the session has when it is made: the answers of the server, two
readings of the clock, the secret of the catalog and the secret manager. -/
structure TableQuery where
  server : String → Except Error String
  ifNotFound : OnEntryNotFound
  schema : String
  type : CatalogType
  name : String
  now : ℤ
  later : ℤ
  catalogSecret : FoundSecret
  accepts : CreateSecretInfo → Except Error Unit
  secrets : Secrets
  base : String → ParameterValue → Except Error Bool

/-- The lookup of the table. -/
abbrev TableQuery.lookup (q : TableQuery) : Call :=
  .getEntry q.server q.ifNotFound q.schema q.type q.name

/-- `GetScanFunction`.  The metadata that the credentials are read from is looked up in the cache of the
catalog, unless the format of the table is not supported. -/
def boundScan (ctx : CatalogContext) (s : AttachedCatalog) (q : TableQuery) (tableData : IRCAPITable) :
    Except Error IcebergMultiFileList × AttachedCatalog × Secrets :=
  let fetched :=
    if tableData.dataSourceFormat ≠ "ICEBERG" then (.ok "", s.catalog)
    else s.catalog.getTableMetadataCached ctx q.now q.later tableData.schemaName tableData.name
      (q.server (s.catalog.config.tableURL ctx.urlEncode tableData.schemaName tableData.name))
  match ICTableEntry.getScanFunction ctx q.accepts s.catalog.config tableData fetched.1
    q.catalogSecret q.secrets with
  | (.error e, secrets) => (.error e, { s with catalog := fetched.2 }, secrets)
  | (.ok _, secrets) =>
    (bindIcebergScan q.base [tableData.storageLocation] [], { s with catalog := fetched.2 }, secrets)

/-- The lookup and the bind, or `none` where the lookup finds no table. -/
def query (ctx : CatalogContext) (s : AttachedCatalog) (q : TableQuery) :
    Option (Except Error IcebergMultiFileList) × AttachedCatalog :=
  let found := s.perform ctx q.lookup
  match found.1.table? with
  | none => (none, found.2)
  | some entry =>
    let bound := boundScan ctx found.2 q entry.data.tableData
    (some bound.1, bound.2.1)

section Queries

variable {ctx : CatalogContext} {config : IRCatalogConfig} {defaultSchema : String}
  {servers : List (String → Except Error String)} {s : AttachedCatalog} {q : TableQuery}
  {list : IcebergMultiFileList}

/-- **What is bound** is the list of files at the storage location, with the options that
`iceberg_scan` has by default. -/
theorem boundScan_eq_ok {tableData : IRCAPITable}
    (h : (s.boundScan ctx q tableData).1 = .ok list) : list = ofPath tableData.storageLocation {} := by
  unfold boundScan at h
  dsimp only at h
  split at h
  · cases h
  · exact (Except.ok.inj h).symm

/-- The bind leaves the catalog as a lookup of metadata does, or as it is. -/
theorem boundScan_catalog (ctx : CatalogContext) (s : AttachedCatalog) (q : TableQuery)
    (tableData : IRCAPITable) :
    ∃ calls, .clearCache ∉ calls ∧ (s.boundScan ctx q tableData).2.1 = s.performAll ctx calls := by
  by_cases hformat : tableData.dataSourceFormat = "ICEBERG"
  · refine ⟨[.getTableMetadataCached q.server q.now q.later tableData.schemaName tableData.name],
      by simp, ?_⟩
    unfold boundScan
    simp only [hformat, ne_eq, not_true_eq_false, if_false]
    split <;> rfl
  · refine ⟨[], List.not_mem_nil, ?_⟩
    unfold boundScan
    simp only [ne_eq, hformat, not_false_eq_true, if_true]
    split <;> rfl

/-- A query that binds a scan has found a table, and binds its location. -/
theorem query_eq_ok (h : (s.query ctx q).1 = some (.ok list)) :
    ∃ entry, (s.perform ctx q.lookup).1.table? = some entry ∧
      list = ofPath entry.data.tableData.storageLocation {} ∧
      ∃ calls, .clearCache ∉ calls ∧
        (s.query ctx q).2 = (s.perform ctx q.lookup).2.performAll ctx calls := by
  unfold query at h ⊢
  dsimp only at h ⊢
  cases htable : (s.perform ctx q.lookup).1.table? with
  | none =>
    rw [htable] at h
    cases h
  | some entry =>
    rw [htable] at h
    exact ⟨entry, rfl, boundScan_eq_ok (Option.some.inj h), boundScan_catalog ctx _ q _⟩

/-- A query of a table that is held binds the location that is held. -/
theorem Held.query {schema name : String} {entry : CatalogEntry ICTableEntry}
    (h : Held schema name entry s) {n : String} (hn : schemaName s.defaultSchema q.schema = some n)
    (hschema : ciEquals n schema) (hname : ciEquals q.name name)
    (htype : q.type = .tableEntry ∨ q.type = .viewEntry) (hlist : (s.query ctx q).1 = some (.ok list)) :
    list = ofPath entry.data.tableData.storageLocation {} := by
  obtain ⟨entry', hentry, rfl, -⟩ := query_eq_ok hlist
  have hlookup : (s.perform ctx q.lookup).1 = .entry ⟨[], .ok (some entry)⟩ :=
    h.lookup hn hschema hname htype q.server q.ifNotFound
  rw [hlookup] at hentry
  obtain rfl : entry = entry' := Option.some.inj hentry
  rfl

/-- This server answers the request for the metadata of the table with this metadata location. -/
def Locates (ctx : CatalogContext) (config : IRCatalogConfig) (server : String → Except Error String)
    (schema table location : String) : Prop :=
  ∃ text root, server (config.tableURL ctx.urlEncode schema table) = .ok text ∧
    apiResultToDoc ctx text = .ok root ∧
    tryGetStrFromObject root "metadata-location" = .ok location

theorem locates_of_fromServer {catalog : IRCatalog} {schema : String}
    {server : String → Except Error String} {name : String} {data : ICTableEntry}
    (h : ICTableSet.FromServer ctx catalog schema server name data) :
    Locates ctx catalog.config server schema name data.tableData.storageLocation := by
  obtain ⟨text, root, htext, hroot, htable, -⟩ := h
  exact ⟨text, root, htext, hroot, ICTableSet.populateTableMetadata_location htable⟩

/-- What a query finds: an entry of a server that was asked, which the catalog holds from then on. -/
theorem Sourced.query (h : Sourced ctx config defaultSchema servers s)
    (hserver : ICTableSet.NonemptyLocations ctx q.server) (hlist : (s.query ctx q).1 = some (.ok list)) :
    ∃ n m entry, schemaName defaultSchema q.schema = some n ∧ ciEquals m n ∧
      ciEquals entry.name q.name ∧
      (∃ server ∈ servers ++ [q.server],
        Locates ctx config server m entry.name entry.data.tableData.storageLocation) ∧
      list = ofPath entry.data.tableData.storageLocation {} ∧ Held n q.name entry (s.query ctx q).2 ∧
      ∃ servers', Sourced ctx config defaultSchema servers' (s.query ctx q).2 := by
  obtain ⟨entry, htable, rfl, calls, hcalls, hstate⟩ := query_eq_ok hlist
  obtain ⟨requests, hanswer⟩ := table?_eq_some.1 htable
  have hlookup : q.lookup ≠ .clearCache := by rintro ⟨⟩
  obtain ⟨n, m, hn, hm, hname, ⟨server, hserver', hfrom⟩, hheld⟩ := h.getEntry hserver hanswer
  obtain ⟨hheld', hlast⟩ := hheld.performAll (h.perform hlookup) hcalls
  have hlocates := locates_of_fromServer hfrom
  rw [hstate]
  exact ⟨n, m, entry, hn, hm, hname, ⟨server, hserver', hlocates⟩, rfl, hheld', hlast⟩

/-- **From the catalog to the rows.**  After any run of calls on a catalog whose server may change, a
query of a table binds a scan of a location that a server gave, when asked since the caches were cleared,
for that table in that schema.  Where the files there are those of a table, the scan returns the rows of
its latest snapshot, and a query of the same table that is made before the caches are cleared again binds
a scan of the same location and returns the same rows, whatever the server answers by then. -/
theorem query_rows (ctx : CatalogContext) (config : IRCatalogConfig) (defaultSchema : String)
    (calls : List Call) (q : TableQuery) (hserver : ICTableSet.NonemptyLocations ctx q.server) :
    let s := performAll ctx ⟨{ config }, {}, defaultSchema⟩ calls
    ∀ list, (s.query ctx q).1 = some (.ok list) →
      ∃ n m name location, schemaName defaultSchema q.schema = some n ∧ ciEquals m n ∧
        ciEquals name q.name ∧
        (∃ server ∈ serversSince calls ++ [q.server], Locates ctx config server m name location) ∧
        list = .ofPath location {} ∧
        ∀ {α : Type} (w : WrittenTable α) (fctx : ClientContext) (files : DataFileScan (α × ℕ))
          (o : Option WrittenSnapshot), w.Valid → w.Stored fctx location {} files →
          w.Selected {} o → Returns fctx files list (w.contents {} o) (w.rowsAt o) ∧
          ∀ later, .clearCache ∉ later → ∀ (q' : TableQuery) n' list',
            q'.type = .tableEntry ∨ q'.type = .viewEntry →
            schemaName defaultSchema q'.schema = some n' → ciEquals n' n → ciEquals q'.name q.name →
            (((s.query ctx q).2.performAll ctx later).query ctx q').1 = some (.ok list') →
            list' = .ofPath location {} ∧ Returns fctx files list' (w.contents {} o) (w.rowsAt o) := by
  intro s list hlist
  have hsourced : Sourced ctx config defaultSchema (serversSince calls) s :=
    performAll_sourced ctx config defaultSchema calls
  obtain ⟨n, m, entry, hn, hm, hname, hfrom, rfl, hheld, servers, hnext⟩ := hsourced.query hserver hlist
  refine ⟨n, m, entry.name, entry.data.tableData.storageLocation, hn, hm, hname, hfrom, rfl, ?_⟩
  intro α w fctx files o hw hstored ho
  refine ⟨hstored.returns hw ho, ?_⟩
  intro later hlater q' n' list' htype hn' hschema' hname' hlist'
  -- the entry is held from the first query on
  obtain ⟨hheld', servers', hlast⟩ := hheld.performAll hnext hlater
  rw [← hlast.default_eq] at hn'
  obtain rfl := hheld'.query hn' hschema' hname' htype hlist'
  exact ⟨rfl, hstored.returns hw ho⟩

end Queries

/-! ### Two queries -/

/-- A query that a session without secrets makes. -/
def queryOf (server : String → Except Error String) (schema name : String) : TableQuery where
  server := server
  ifNotFound := .throwException
  schema := schema
  type := .tableEntry
  name := name
  now := 0
  later := 0
  catalogSecret := .ok none
  accepts _ := .ok ()
  secrets := NormMap.empty
  base _ _ := .ok false

/-- What the server has given. -/
theorem twoSchemas_locates {schema table location : String}
    (h : Locates ICTableSet.locatedContext .polaris twoSchemas schema table location) :
    location = "s3://b/m.json" := by
  obtain ⟨text, root, htext, hroot, hlocation⟩ := h
  have hread : ∀ text ∈ [namespacesText, tablesText, ICTableSet.locatedText],
      (apiResultToDoc ICTableSet.locatedContext text >>= fun root =>
        tryGetStrFromObject root "metadata-location").toOption.getD "s3://b/m.json" =
          "s3://b/m.json" := by decide +kernel
  have hmem : text ∈ [namespacesText, tablesText, ICTableSet.locatedText] := by
    unfold twoSchemas at htext
    split_ifs at htext
    all_goals
      cases htext
      simp
  have hsame := hread text hmem
  rw [hroot] at hsame
  have hbind : (.ok root >>= fun root => tryGetStrFromObject root "metadata-location") =
      (.ok location : Except Error String) := hlocation
  rw [hbind] at hsame
  exact hsame

/-- What the first query leaves of the catalog. -/
def queriedCatalog : AttachedCatalog :=
  (clearedCatalog.query ICTableSet.locatedContext (queryOf twoSchemas "s" "b")).2

theorem exists_bound {bound : Option (Except Error IcebergMultiFileList)}
    (h : (bound.bind Except.toOption).isSome = true) : ∃ list, bound = some (.ok list) := by
  rcases bound with _ | e | list
  · cases h
  · cases h
  · exact ⟨list, rfl⟩

/-- A second query returns the rows at the location that the server gave to the first. -/
theorem query_rows_two :
    ∃ list, (queriedCatalog.query ICTableSet.locatedContext (queryOf twoSchemas "S" "B")).1 =
        some (.ok list) ∧ list = .ofPath "s3://b/m.json" {} ∧
      (((scan WrittenTable.numbersContext WrittenTable.numbersFiles WrittenTable.numbersCalls
        list).flatMap rowsReturned).map Prod.fst).Perm [10, 30, 40] := by
  obtain ⟨list, hlist⟩ := @exists_bound (clearedCatalog.query ICTableSet.locatedContext
    (queryOf twoSchemas "s" "b")).1 (by decide +kernel)
  obtain ⟨list', hlist'⟩ := @exists_bound (queriedCatalog.query ICTableSet.locatedContext
    (queryOf twoSchemas "S" "B")).1 (by decide +kernel)
  obtain ⟨n, m, name, location, hn, -, -, ⟨server, hserver, hlocates⟩, -, hrows⟩ := query_rows
    ICTableSet.locatedContext IRCatalogConfig.polaris "" _ (queryOf twoSchemas "s" "b")
    twoSchemas_located _ hlist
  -- no server has been asked since the clear
  obtain rfl : server = twoSchemas := List.mem_singleton.1 hserver
  obtain rfl := twoSchemas_locates hlocates
  obtain ⟨-, hagain⟩ := hrows (.commits WrittenTable.numbersTable [WrittenTable.numbersCommit])
    _ _ _ WrittenTable.numbersCommit_valid (WrittenTable.numbersCommit_stored rfl rfl)
    WrittenTable.numbersCommit_selected
  obtain rfl : "s" = n := Option.some.inj hn
  obtain ⟨hbound, hreturns⟩ := hagain [] List.not_mem_nil (queryOf twoSchemas "S" "B") "S" list'
    (Or.inl rfl) rfl (by decide) (by decide) hlist'
  exact ⟨list', hlist', hbound, hreturns.rows _ WrittenTable.numbersCalls_follows (by decide)⟩

end AttachedCatalog

end DuckIceberg
