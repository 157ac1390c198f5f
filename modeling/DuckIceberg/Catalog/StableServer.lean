import DuckIceberg.Catalog.FreshEntries
import DuckIceberg.Lib.Machine

/-!
# A server that does not change

Three caches stand between a call of a catalog and the server: the schemas, the tables of each schema,
and the responses of `SetCachedValue`.  As long as the server gives the same answer to the same request,
a caller sees nothing of them.  `Call.shows` says what a call is to show, from the answers of the server
alone.

* `Tracks.getEntry_seen`, `Tracks.scan_seen`: one set, loaded or not, shows what the server lists;
* `Known.perform`: so does the catalog, with its sets in a set;
* `stable_server_seen`: so does every call of a run.
-/

namespace DuckIceberg

open Strings Json IcebergUtils ICUtils IRCAPI

/-! ### One set -/

namespace IRCCatalogSet

variable {δ σ β : Type}

/-- What becomes of a listing: it is refused for an empty name, and of names that are equal the first is
kept. -/
def loadable (listing : Except Error (List String)) : Except Error (List String) := do
  let names ← listing
  if "" ∈ names then
    throw ⟨.internal, "ICCatalogSet::CreateEntry called with empty name"⟩
  return NormMap.firsts lower names

/-- What a lookup is to show, where `shows` is what each entry shows. -/
def seen (listing : Except Error (List String)) (shows : String → Except Error β) (name : String) :
    Except Error (Option β) := do
  match (← loadable listing).find? fun n => ciEquals n name with
  | none => return none
  | some n => return some (← shows n)

/-- The set has no entries, or one for each name of this listing. -/
def Tracks (listing : Except Error (List String)) (R : String → δ → Prop) (set : IRCCatalogSet δ) :
    Prop :=
  set.entries.entries = [] ∨
    ∃ ns, listing = .ok ns ∧ "" ∉ ns ∧ Loaded set (NormMap.firsts lower ns) R

/-- What an entry shows when `FillEntry` has had it. -/
def shown (view : String → δ → β) (entry : CatalogEntry δ) :
    Except Error (Option (String × δ)) → Except Error β
  | .error e => .error e
  | .ok none => .ok (view entry.name entry.data)
  | .ok (some (name, data)) => .ok (view name data)

/-- The first name that equals this one is that of the entry that is found. -/
theorem find?_eq_map {es : List (String × CatalogEntry δ)} (hnames : ∀ e ∈ es, e.2.name = e.1)
    (name : String) : (es.map Prod.fst).find? (fun n => ciEquals n name) =
      (NormMap.findList lower name es).map CatalogEntry.name := by
  induction es with
  | nil => rfl
  | cons e es ih =>
    obtain ⟨he, hes⟩ := List.forall_mem_cons.1 hnames
    rw [List.map_cons, List.find?_cons, NormMap.findList]
    by_cases h : lower e.1 = lower name
    · have heq : decide (ciEquals e.1 name) = true := decide_eq_true h
      rw [heq, if_pos h, ← he]
      rfl
    · have hne : decide (ciEquals e.1 name) = false := decide_eq_false h
      rw [hne, if_neg h]
      exact ih hes

section Tracking

variable {listing : Except Error (List String)} {R : String → δ → Prop} {set : IRCCatalogSet δ}
  {make : String → δ}

/-- **Loading** throws and leaves an empty set, or leaves an entry for each name. -/
theorem Tracks.loadEntries (h : Tracks listing R set) (hlists : ¬ ListsEmptyLater listing)
    (hmake : ∀ n, R n (make n)) :
    (∃ e, loadable listing = .error e ∧ set.entries.entries = [] ∧
        set.loadEntries (listing.map (entriesOf make)) = (.error e, set)) ∨
      ∃ ns set', loadable listing = .ok (NormMap.firsts lower ns) ∧ listing = .ok ns ∧ "" ∉ ns ∧
        set.loadEntries (listing.map (entriesOf make)) = (.ok (), set') ∧
        Loaded set' (NormMap.firsts lower ns) R := by
  have hloadable : ∀ ns, listing = .ok ns → "" ∉ ns →
      loadable listing = .ok (NormMap.firsts lower ns) := by
    rintro ns rfl hne
    simp only [loadable, bind, Except.bind, if_neg hne]
    rfl
  by_cases hnil : set.entries.entries = []
  · cases hlisting : listing with
    | error e => exact Or.inl ⟨e, rfl, hnil, if_neg (not_not_intro hnil)⟩
    | ok ns =>
      rw [hlisting] at hlists hloadable
      by_cases hempty : "" ∈ ns
      · -- the empty name comes first, and nothing is made
        have hhead : ns.head? = some "" := by
          by_contra hhead
          exact hlists ⟨ns, rfl, hempty, hhead⟩
        obtain ⟨rest, rfl⟩ : ∃ rest, ns = "" :: rest := by
          cases ns with
          | nil => cases hhead
          | cons n rest => exact ⟨rest, by rw [Option.some.inj hhead]⟩
        refine Or.inl ⟨⟨.internal, "ICCatalogSet::CreateEntry called with empty name"⟩, ?_, hnil, ?_⟩
        · simp only [loadable, bind, Except.bind, if_pos hempty]
          rfl
        · rw [Except.map, loadEntries_of_nil make hnil]
          rfl
      · obtain ⟨set', hload, hloaded⟩ := loadEntries_whole make hnil hempty hmake
        exact Or.inr ⟨ns, set', hloadable ns rfl hempty, rfl, hempty, hload, hloaded⟩
  · obtain ⟨ns, hns, hempty, hloaded⟩ := h.resolve_left hnil
    exact Or.inr ⟨ns, set, hloadable ns hns hempty, hns, hempty, loadEntries_of_ne_nil hnil _, hloaded⟩

/-- A scan shows the names that are kept. -/
theorem Tracks.scan_seen (h : Tracks listing R set) (hlists : ¬ ListsEmptyLater listing)
    (hmake : ∀ n, R n (make n)) :
    (scan (listing.map (entriesOf make)) set).1.map (List.map CatalogEntry.name) = loadable listing ∧
      Tracks listing R (scan (listing.map (entriesOf make)) set).2 := by
  rcases h.loadEntries hlists hmake with
    ⟨e, hloadable, hnil, hload⟩ | ⟨ns, set', hloadable, hns, hempty, hload, hloaded⟩
  · rw [scan, hload, hloadable]
    exact ⟨rfl, Or.inl hnil⟩
  · rw [scan, hload, hloadable]
    exact ⟨congrArg Except.ok hloaded.names_eq, Or.inr ⟨ns, hns, hempty, hloaded⟩⟩

/-- **A lookup** shows what the entry shows that is listed under the name, and finds it in the set. -/
theorem Tracks.getEntry_seen (h : Tracks listing R set) (hlists : ¬ ListsEmptyLater listing)
    (hmake : ∀ n, R n (make n)) {fillEntry : FillEntry σ δ} {state : σ} {view : String → δ → β}
    {shows : String → Except Error β}
    (hshows : ∀ entry : CatalogEntry δ, R entry.name entry.data →
      shown view entry (fillEntry state entry).1 = shows entry.name)
    (hfill : ∀ entry : CatalogEntry δ, ∀ n d, R entry.name entry.data →
      (fillEntry state entry).1 = .ok (some (n, d)) → n = entry.name ∧ R n d) (name : String) :
    let out := getEntry (listing.map (entriesOf make)) fillEntry state set name
    out.1.map (Option.map fun entry => view entry.name entry.data) = seen listing shows name ∧
      Tracks listing R out.2.2 := by
  intro out
  rcases h.loadEntries hlists hmake with
    ⟨e, hloadable, hnil, hload⟩ | ⟨ns, set', hloadable, hns, hempty, hload, hloaded⟩
  · have hout : out = (.error e, state, set) := by
      show getEntry (listing.map (entriesOf make)) fillEntry state set name = _
      rw [getEntry, hload]
    rw [hout, seen, hloadable]
    exact ⟨rfl, Or.inl hnil⟩
  · have hout : out = getEntry (.ok (entriesOf make ns)) fillEntry state set' name := by
      show getEntry (listing.map (entriesOf make)) fillEntry state set name = _
      rw [getEntry, hload, getEntry, hloaded.loadEntries make]
    have hafter := hloaded.after_getEntry make name (fun _ _ h => h) hfill
    rw [hout]
    refine ⟨?_, Or.inr ⟨ns, hns, hempty, hafter⟩⟩
    have hfind := find?_eq_map (fun e he => (hloaded.2 e he).1) name
    rw [hloaded.1] at hfind
    rw [hloaded.getEntry_eq make, seen, hloadable]
    simp only [bind, Except.bind, hfind]
    cases hentry : set'.entries.find? name with
    | none =>
      rw [NormMap.find?] at hentry
      rw [hentry]
      rfl
    | some entry =>
      obtain ⟨e, he, hek, rfl⟩ := NormMap.mem_of_find? hentry
      have hshown := hshows e.2 ((hloaded.2 e he).1.symm ▸ (hloaded.2 e he).2)
      rw [NormMap.find?] at hentry
      rw [hentry, Option.map_some]
      dsimp only
      rw [← hshown]
      rcases fillEntry state e.2 with ⟨error | _ | ⟨n, d⟩, state'⟩ <;> rfl

end Tracking

/-- What `FillEntry` preserves holds after a lookup. -/
theorem getEntry_state {I : σ → Prop} {fillEntry : FillEntry σ δ} {state : σ} (hstate : I state)
    (hfill : ∀ entry, I (fillEntry state entry).2)
    (load : Except Error (List (Except Error (String × δ)))) (set : IRCCatalogSet δ) (name : String) :
    I (getEntry load fillEntry state set name).2.1 := by
  rcases hload : set.loadEntries load with ⟨e | u, set'⟩
  · rw [getEntry, hload]
    exact hstate
  · cases hfind : set'.entries.find? name with
    | none =>
      simp only [getEntry, hload, hfind]
      exact hstate
    | some entry =>
      have hnext := hfill entry
      simp only [getEntry, hload, hfind]
      rcases hrun : fillEntry state entry with ⟨e | _ | ⟨n, d⟩, state'⟩
      all_goals
        rw [hrun] at hnext
        exact hnext

/-- Other data for an entry of the set. -/
theorem Loaded.update {set : IRCCatalogSet δ} {names : List String} {R : String → δ → Prop}
    (h : Loaded set names R) {entry : CatalogEntry δ}
    (hentry : set.entries.find? entry.name = some entry) {data : δ} (hdata : R entry.name data) :
    Loaded { set with entries := set.entries.insert entry.name { entry with data } } names R := by
  have hentries := NormMap.entries_insert_of_some hentry { entry with data }
  have hkept : Kept R set := h.2
  refine ⟨?_, hkept.update hentry hdata⟩
  rw [hentries, List.map_map, ← h.1]
  refine List.map_congr_left fun x _ => ?_
  by_cases hx : lower x.1 = lower entry.name
  · simp only [Function.comp_apply, if_pos hx]
  · simp only [Function.comp_apply, if_neg hx]

end IRCCatalogSet

/-! ### What the server says -/

/-- The names that are listed do not depend on the schema. -/
theorem ICTableSet.names_congr (ctx : CatalogContext) (catalog : IRCatalogConfig)
    (schema schema' : String) (response : Except Error String) :
    names ctx catalog schema response = names ctx catalog schema' response := by
  have hnames : ∀ schema, ∀ tables : List Json, (tables.mapM fun table => do
      let name ← tryGetStrFromObject (some table) "name"
      return IRCAPI.getTable catalog schema name).map (List.map IRCAPITable.name) =
        tables.mapM fun table => tryGetStrFromObject (some table) "name" := by
    intro schema tables
    induction tables with
    | nil => rfl
    | cons table tables ih =>
      rw [List.mapM_cons, List.mapM_cons, ← ih]
      cases tryGetStrFromObject (some table) "name" with
      | error e => rfl
      | ok name =>
        cases tables.mapM fun table => do
          let name ← tryGetStrFromObject (some table) "name"
          return IRCAPI.getTable catalog schema name with
        | error e => rfl
        | ok tables => rfl
  cases response with
  | error e => rfl
  | ok text =>
    unfold names IRCAPI.getTables
    cases hroot : apiResultToDoc ctx text with
    | error e => simp only [bind, Except.bind, hroot]
    | ok root =>
      simp only [bind, Except.bind, hroot]
      exact (hnames schema _).trans (hnames schema' _).symm

section Server

variable (ctx : CatalogContext) (config : IRCatalogConfig) (server : String → Except Error String)

/-- The schemas that the server lists. -/
def schemaListing : Except Error (List String) :=
  IRCSchemaSet.names ctx config (server (config.namespacesURL ctx.urlEncode))

/-- The tables that it lists for a schema. -/
def tableListing (schema : String) : Except Error (List String) :=
  ICTableSet.names ctx config schema (server (config.tablesURL ctx.urlEncode schema))

/-- The table that it describes under a name. -/
def describedTable (schema name : String) : Except Error (String × ICTableEntry) :=
  (ICTableSet.fetches ctx { config } schema server name).map (name, ·)

/-- What it answers to a request for the metadata of a table, if the response can be read. -/
def describedMetadata (schema table : String) : Except Error String := do
  let text ← server (config.tableURL ctx.urlEncode schema table)
  let _ ← IRCatalog.expiry ctx text
  return text

/-- The server lists no schema and no table before an empty name. -/
def ListsNames : Prop :=
  ¬ IRCCatalogSet.ListsEmptyLater (schemaListing ctx config server) ∧
    ∀ schema, ¬ IRCCatalogSet.ListsEmptyLater (tableListing ctx config server schema)

/-- What a call is to show of the schema with this name. -/
def shownNamed (ifNotFound : OnEntryNotFound) (name : String) : Except Error (Option String) := do
  match ← IRCCatalogSet.seen (schemaListing ctx config server) .ok name with
  | none =>
    if ifNotFound = .returnNull then return none
    else throw ⟨.binder, "Schema with name \"" ++ name ++ "\" not found"⟩
  | some schema => return some schema

/-- What it is to show of a schema, where `main` is the default schema. -/
def shownSchema (defaultSchema : String) (ifNotFound : OnEntryNotFound) (name : String) :
    Except Error (Option String) :=
  if name ≠ "main" then shownNamed ctx config server ifNotFound name
  else if defaultSchema ≠ "" ∧ defaultSchema ≠ "main" then
    shownNamed ctx config server ifNotFound defaultSchema
  else if defaultSchema = "main" then .error ⟨.undefined, "GetSchema calls itself without end"⟩
  else if ifNotFound = .returnNull then .ok none
  else
    .error ⟨.invalidInput, "Attempting to fetch the default schema - but no database was " ++
      "provided in the connection string"⟩

/-- What a call is to show of a table of a schema. -/
def shownTable (schema : String) (type : CatalogType) (name : String) :
    Except Error (Option (String × ICTableEntry)) :=
  match type with
  | .other => .ok none
  | .indexEntry => .error ⟨.internal, "Type not supported for GetCatalogSet"⟩
  | .tableEntry | .viewEntry =>
    IRCCatalogSet.seen (tableListing ctx config server schema)
      (describedTable ctx config server schema) name

/-- What a scan is to show of the tables of a schema. -/
def shownTables (schema : String) : CatalogType → Except Error (List String)
  | .other => .ok []
  | .indexEntry => .error ⟨.internal, "Type not supported for GetCatalogSet"⟩
  | .tableEntry | .viewEntry => IRCCatalogSet.loadable (tableListing ctx config server schema)

end Server

namespace AttachedCatalog

/-- What a caller sees of an answer: not the requests, and not the addresses of the entries. -/
inductive Shown
  | schema (name : Except Error (Option String))
  | schemas (names : Except Error (List String))
  | entry (table : Except Error (Option (String × ICTableEntry)))
  | entries (names : Except Error (List String))
  | metadata (text : Except Error String)
  | cleared

/-- What a caller sees. -/
def Answer.shown : Answer → Shown
  | .schema reply => .schema (reply.result.map (Option.map CatalogEntry.name))
  | .schemas reply => .schemas (reply.result.map (List.map CatalogEntry.name))
  | .entry reply =>
    .entry (reply.result.map (Option.map fun entry => (entry.name, entry.data)))
  | .entries reply => .entries (reply.result.map (List.map CatalogEntry.name))
  | .metadata reply => .metadata reply.result
  | .cleared => .cleared

/-- What the server says about a call. -/
def Call.shows (ctx : CatalogContext) (config : IRCatalogConfig) (defaultSchema : String) :
    Call → Shown
  | .getSchema server ifNotFound name =>
    .schema (shownSchema ctx config server defaultSchema ifNotFound name)
  | .scanSchemas server => .schemas (IRCCatalogSet.loadable (schemaListing ctx config server))
  | .getEntry server ifNotFound schema type name => .entry (do
    match ← shownSchema ctx config server defaultSchema ifNotFound schema with
    | none => return none
    | some schema => shownTable ctx config server schema type name)
  | .scan server ifNotFound schema type => .entries (do
    match ← shownSchema ctx config server defaultSchema ifNotFound schema with
    | none => return []
    | some schema => shownTables ctx config server schema type)
  | .getTableMetadataCached server _ _ schema table =>
    .metadata (describedMetadata ctx config server schema table)
  | .clearCache => .cleared

/-- The call goes to this server, and no response of it expires while the cache is looked up. -/
def Call.GoesTo (ctx : CatalogContext) (server : String → Except Error String) : Call → Prop
  | .getSchema server' .. | .scanSchemas server' | .getEntry server' .. | .scan server' .. =>
    server' = server
  | .getTableMetadataCached server' now later .. =>
    server' = server ∧ ∀ url text t, server url = .ok text →
      IRCatalog.expiry ctx text = .ok (some t) → now < t → later < t
  | .clearCache => True

/-! ### What is known of the server -/

variable (ctx : CatalogContext) (config : IRCatalogConfig) (server : String → Except Error String)

/-- A schema has the tables that the server lists, or none, and those that are filled are as it
describes them. -/
def KnownSchema (name : String) (schema : IRCSchemaEntry) : Prop :=
  schema.schemaData = ⟨name, config.name⟩ ∧
    IRCCatalogSet.Tracks (tableListing ctx config server name)
      (ICTableSet.Filled ctx { config } name [server]) schema.tables

/-- So has the catalog its schemas. -/
def KnownSchemas (schemas : IRCCatalogSet IRCSchemaEntry) : Prop :=
  IRCCatalogSet.Tracks (schemaListing ctx config server) (KnownSchema ctx config server) schemas

/-- The catalog has this configuration, and its responses are what the server answers. -/
def KnownCache (catalog : IRCatalog) : Prop :=
  catalog.config = config ∧ ∀ url value, catalog.metadataCache.find? url = some value →
    server url = .ok value.data ∧ IRCatalog.expiry ctx value.data = .ok (some value.expiresAt)

/-- All three caches hold what the server says. -/
structure Known (defaultSchema : String) (s : AttachedCatalog) : Prop where
  cache : KnownCache ctx config server s.catalog
  schemas : KnownSchemas ctx config server s.schemas
  default_eq : s.defaultSchema = defaultSchema

variable {ctx config server}

/-! ### Responses -/

theorem getTableMetadata_fst (catalog : IRCatalog) (schema table : String)
    (response : Except Error String) :
    (catalog.getTableMetadata ctx schema table response).1 = (do
      let text ← response
      let _ ← IRCatalog.expiry ctx text
      return text) := by
  cases response with
  | error e => rfl
  | ok text =>
    rcases hexpiry : IRCatalog.expiry ctx text with e | _ | t <;>
      simp only [IRCatalog.getTableMetadata, IRCatalog.setCachedValue, hexpiry, bind, Except.bind,
        pure, Except.pure]

theorem KnownCache.getTableMetadata {catalog : IRCatalog} (h : KnownCache ctx config server catalog)
    (schema table : String) : KnownCache ctx config server (catalog.getTableMetadata ctx schema table
      (server (config.tableURL ctx.urlEncode schema table))).2 := by
  have hconfig := h.1
  cases hanswer : server (config.tableURL ctx.urlEncode schema table) with
  | error e => exact h
  | ok text =>
    rcases hexpiry : IRCatalog.expiry ctx text with e | _ | t
    all_goals simp only [IRCatalog.getTableMetadata, IRCatalog.setCachedValue, hexpiry]
    · exact h
    · exact h
    · refine ⟨h.1, fun url value hvalue => ?_⟩
      dsimp only at hvalue
      rw [NormMap.find?_insert, id_eq, id_eq] at hvalue
      by_cases heq : catalog.config.tableURL ctx.urlEncode schema table = url
      · rw [if_pos heq] at hvalue
        obtain rfl := Option.some.inj hvalue
        rw [← heq, hconfig]
        exact ⟨hanswer, hexpiry⟩
      · rw [if_neg heq] at hvalue
        exact h.2 url value hvalue

theorem KnownCache.fillEntry {catalog : IRCatalog} (h : KnownCache ctx config server catalog)
    (schema : String) (entry : CatalogEntry ICTableEntry) :
    KnownCache ctx config server (ICTableSet.fillEntry ctx schema server catalog entry).2 := by
  rw [ICTableSet.fillEntry]
  by_cases hfilled : entry.data.tableData.storageLocation ≠ ""
  · rw [if_pos hfilled]
    exact h
  · have hnext := h.getTableMetadata schema entry.name
    rw [← h.1, ← ICTableSet.getTableWithCredentials_snd] at hnext
    rw [if_neg hfilled, ICTableSet.fetchEntry]
    rcases hrun : IRCAPI.getTableWithCredentials ctx catalog schema entry.name
      (server (catalog.config.tableURL ctx.urlEncode schema entry.name)) with ⟨e | table, catalog'⟩
    · rw [hrun, h.1] at hnext
      exact hnext
    · rw [hrun, h.1] at hnext
      dsimp only
      cases ICTableSet.createCatalogEntry ctx table with
      | error e => exact hnext
      | ok entry => exact hnext

/-- **A lookup of metadata** returns what the server answers, from the cache or not. -/
theorem KnownCache.getTableMetadataCached {catalog : IRCatalog}
    (h : KnownCache ctx config server catalog) {now later : ℤ}
    (hlater : ∀ url text t, server url = .ok text → IRCatalog.expiry ctx text = .ok (some t) →
      now < t → later < t) (schema table : String) :
    let found := catalog.getTableMetadataCached ctx now later schema table
      (server (config.tableURL ctx.urlEncode schema table))
    found.1 = describedMetadata ctx config server schema table ∧
      KnownCache ctx config server found.2 := by
  intro found
  set url := config.tableURL ctx.urlEncode schema table with hurl
  have hconfig := h.1
  by_cases hhit : catalog.hasCachedValue now url = true
  · have hfound : found = (catalog.getCachedValue later url, catalog) := by
      show catalog.getTableMetadataCached ctx now later schema table (server url) = _
      rw [IRCatalog.getTableMetadataCached, hconfig, ← hurl]
      exact if_pos hhit
    rw [hfound]
    refine ⟨?_, h⟩
    rw [IRCatalog.hasCachedValue] at hhit
    cases hvalue : catalog.metadataCache.find? url with
    | none =>
      rw [hvalue] at hhit
      cases hhit
    | some value =>
      rw [hvalue] at hhit
      obtain ⟨hanswer, hexpiry⟩ := h.2 url value hvalue
      have hlt : later < value.expiresAt :=
        hlater url value.data value.expiresAt hanswer hexpiry (of_decide_eq_true hhit)
      simp only [IRCatalog.getCachedValue, hvalue, if_pos hlt, describedMetadata, ← hurl, hanswer,
        bind, Except.bind, hexpiry, pure, Except.pure]
  · have hfound : found = catalog.getTableMetadata ctx schema table (server url) := by
      show catalog.getTableMetadataCached ctx now later schema table (server url) = _
      rw [IRCatalog.getTableMetadataCached, hconfig, ← hurl]
      exact if_neg hhit
    rw [hfound]
    exact ⟨getTableMetadata_fst catalog schema table (server url), h.getTableMetadata schema table⟩

/-! ### Schemas -/

/-- The entry of a schema that is listed is known: it has no tables. -/
theorem knownSchema_listed (name : String) :
    KnownSchema ctx config server name { schemaData := ⟨name, config.name⟩ } :=
  ⟨rfl, Or.inl rfl⟩

/-- A reply shows this schema, which is in the set. -/
structure ShowsSchema (ctx : CatalogContext) (config : IRCatalogConfig)
    (server : String → Except Error String) (shown : Except Error (Option String))
    (result : Except Error (Option (CatalogEntry IRCSchemaEntry)))
    (schemas : IRCCatalogSet IRCSchemaEntry) : Prop where
  shows : result.map (Option.map CatalogEntry.name) = shown
  known : KnownSchemas ctx config server schemas
  found : ∀ schema, result = .ok (some schema) → schemas.entries.find? schema.name = some schema ∧
    KnownSchema ctx config server schema.name schema.data

theorem KnownSchemas.lookup {schemas : IRCCatalogSet IRCSchemaEntry}
    (h : KnownSchemas ctx config server schemas) (hlists : ListsNames ctx config server)
    (name : String) : ShowsSchema ctx config server
      (IRCCatalogSet.seen (schemaListing ctx config server) .ok name)
      (IRCSchemaSet.lookup ctx config server schemas name).1
      (IRCSchemaSet.lookup ctx config server schemas name).2 := by
  have hlisted := listedEntries_eq_names ctx config (server (config.namespacesURL ctx.urlEncode))
  let fillEntry : IRCCatalogSet.FillEntry Unit IRCSchemaEntry := fun state _ => (.ok none, state)
  have hshows : ∀ entry : CatalogEntry IRCSchemaEntry,
      KnownSchema ctx config server entry.name entry.data →
        IRCCatalogSet.shown (fun n _ => n) entry (fillEntry () entry).1 = .ok entry.name :=
    fun _ _ => rfl
  have hkeeps : ∀ entry : CatalogEntry IRCSchemaEntry, ∀ n d,
      KnownSchema ctx config server entry.name entry.data →
        (fillEntry () entry).1 = .ok (some (n, d)) →
          n = entry.name ∧ KnownSchema ctx config server n d := by
    rintro entry n d - ⟨⟩
  obtain ⟨hseen, hknown⟩ := h.getEntry_seen hlists.1 (fun n => knownSchema_listed n) hshows hkeeps
    name
  rw [schemaListing, ← hlisted] at hseen hknown
  refine ⟨hseen, hknown, fun schema hschema => ?_⟩
  have hfind := lookup_find? ctx config hschema
  obtain ⟨e, he, -, rfl⟩ := NormMap.mem_of_find? hfind
  obtain ⟨ns, -, -, hloaded⟩ := hknown.resolve_left (List.ne_nil_of_mem he)
  obtain ⟨hname, hR⟩ := hloaded.2 e he
  rw [hname]
  exact ⟨NormMap.find?_of_mem he rfl, hR⟩

theorem KnownSchemas.namedSchema {schemas : IRCCatalogSet IRCSchemaEntry}
    (h : KnownSchemas ctx config server schemas) (hlists : ListsNames ctx config server)
    (ifNotFound : OnEntryNotFound) (name : String) :
    let out := AttachedCatalog.namedSchema ctx config server ifNotFound schemas name
    ShowsSchema ctx config server (shownNamed ctx config server ifNotFound name)
      out.1.result out.2 := by
  intro out
  obtain ⟨hshows, hknown, hfound⟩ := h.lookup hlists name
  unfold out AttachedCatalog.namedSchema
  rw [shownNamed, ← hshows]
  rcases hlookup : IRCSchemaSet.lookup ctx config server schemas name with
    ⟨e | _ | schema, schemas'⟩
  all_goals rw [hlookup] at hknown hfound
  · exact ⟨rfl, hknown, hfound⟩
  · by_cases hnull : ifNotFound = .returnNull
    · simp only [hnull]
      exact ⟨rfl, hknown, hfound⟩
    · simp only [ne_eq, hnull]
      exact ⟨rfl, hknown, by rintro schema ⟨⟩⟩
  · exact ⟨rfl, hknown, hfound⟩

/-- `GetSchema` shows the schema that the server lists. -/
theorem KnownSchemas.getSchema {schemas : IRCCatalogSet IRCSchemaEntry}
    (h : KnownSchemas ctx config server schemas) (hlists : ListsNames ctx config server)
    (defaultSchema : String) (ifNotFound : OnEntryNotFound) (name : String) :
    let out := AttachedCatalog.getSchema ctx config defaultSchema server ifNotFound schemas name
    ShowsSchema ctx config server (shownSchema ctx config server defaultSchema ifNotFound name)
      out.1.result out.2 := by
  intro out
  unfold out AttachedCatalog.getSchema shownSchema
  by_cases hmain : name = "main"
  · rw [if_pos hmain, if_neg (not_not_intro hmain)]
    by_cases hempty : defaultSchema = ""
    · subst hempty
      rw [if_pos rfl, if_neg (by simp), if_neg (by decide)]
      cases ifNotFound with
      | returnNull => exact ⟨rfl, h, by rintro schema ⟨⟩⟩
      | throwException => exact ⟨rfl, h, by rintro schema ⟨⟩⟩
    · by_cases hloop : defaultSchema = "main"
      · have hdefault : ¬ (defaultSchema ≠ "" ∧ defaultSchema ≠ "main") := fun h => h.2 hloop
        rw [if_neg hempty, if_pos hloop, if_neg hdefault, if_pos hloop]
        exact ⟨rfl, h, by rintro schema ⟨⟩⟩
      · simp only [if_neg hempty, if_neg hloop, if_pos (And.intro hempty hloop)]
        exact h.namedSchema hlists ifNotFound defaultSchema
  · rw [if_neg hmain, if_pos hmain]
    exact h.namedSchema hlists ifNotFound name

/-! ### Tables -/

theorem filled_mono {name : String} {schema : String} {data : ICTableEntry}
    (h : ICTableSet.Filled ctx { config } schema ([server] ++ [server]) name data) :
    ICTableSet.Filled ctx { config } schema [server] name data := by
  intro hfilled
  obtain ⟨server', hserver', hfetches⟩ := h hfilled
  exact ⟨server', by simpa using hserver', hfetches⟩

/-- An entry that `FillEntry` has had shows what the server describes, and stays under its name. -/
theorem fillEntry_shown {schema : String} {catalog : IRCatalog} (hconfig : catalog.config = config)
    (entry : CatalogEntry ICTableEntry)
    (hentry : ICTableSet.Filled ctx { config } schema [server] entry.name entry.data) :
    IRCCatalogSet.shown (fun n d => (n, d)) entry
        (ICTableSet.fillEntry ctx schema server catalog entry).1 =
      describedTable ctx config server schema entry.name ∧
    ∀ n d, (ICTableSet.fillEntry ctx schema server catalog entry).1 = .ok (some (n, d)) →
      n = entry.name ∧ ICTableSet.Filled ctx { config } schema [server] n d := by
  have hfills : IRCCatalogSet.Fills (ICTableSet.fetches ctx { config } schema)
      (ICTableSet.Filled ctx { config } schema) [server] server entry
      (ICTableSet.fillEntry ctx schema server catalog entry).1 :=
    ICTableSet.fillEntry_fills { config } catalog hconfig [server] entry hentry
  unfold describedTable
  rcases hrun : (ICTableSet.fillEntry ctx schema server catalog entry).1 with e | _ | ⟨n, d⟩
  all_goals rw [hrun] at hfills
  · have herror : ICTableSet.fetches ctx { config } schema server entry.name = .error e := hfills
    rw [herror]
    exact ⟨rfl, by rintro n d ⟨⟩⟩
  · obtain ⟨server', hserver', hfetches⟩ := hfills
    obtain rfl : server' = server := by simpa using hserver'
    rw [hfetches]
    exact ⟨rfl, by rintro n d ⟨⟩⟩
  · obtain ⟨rfl, hfilled, hfetches⟩ := hfills
    rw [hfetches]
    refine ⟨rfl, ?_⟩
    rintro n d ⟨⟩
    exact ⟨rfl, filled_mono hfilled⟩

/-- **A table** is shown as the server describes it. -/
theorem KnownSchema.getEntry {schema : CatalogEntry IRCSchemaEntry}
    (h : KnownSchema ctx config server schema.name schema.data)
    (hlists : ListsNames ctx config server) {catalog : IRCatalog}
    (hcatalog : KnownCache ctx config server catalog) (type : CatalogType) (name : String) :
    let out := IRCSchemaEntry.getEntry ctx catalog server schema type name
    out.1.result.map (Option.map fun entry => (entry.name, entry.data)) =
        shownTable ctx config server schema.name type name ∧
      KnownCache ctx config server out.2.1 ∧
      KnownSchema ctx config server schema.name { schema.data with tables := out.2.2 } := by
  have hlisted := ICTableSet.listed_eq_names ctx config schema.name
    (server (config.tablesURL ctx.urlEncode schema.name))
  have hmake : ∀ n, ICTableSet.Filled ctx { config } schema.name [server] n
      (ICTableSet.listedEntry config schema.name n) := fun n hfilled => absurd rfl hfilled
  obtain ⟨hseen, htracks⟩ := h.2.getEntry_seen (hlists.2 schema.name) hmake
    (fun entry hentry => (fillEntry_shown hcatalog.1 entry hentry).1)
    (fun entry n d hentry => (fillEntry_shown hcatalog.1 entry hentry).2 n d) name
  rw [tableListing, ← hlisted] at hseen htracks
  cases type with
  | other => exact ⟨rfl, hcatalog, h⟩
  | indexEntry => exact ⟨rfl, hcatalog, h⟩
  | tableEntry | viewEntry =>
    obtain rfl := hcatalog.1
    refine ⟨hseen, ?_, h.1, htracks⟩
    exact IRCCatalogSet.getEntry_state hcatalog
      (fun entry => hcatalog.fillEntry schema.name entry) _ _ _

/-- A scan shows the tables that the server lists. -/
theorem KnownSchema.scan {schema : CatalogEntry IRCSchemaEntry}
    (h : KnownSchema ctx config server schema.name schema.data)
    (hlists : ListsNames ctx config server) {catalog : IRCatalog}
    (hconfig : catalog.config = config) (type : CatalogType) :
    let out := IRCSchemaEntry.scan ctx catalog.config server schema type
    out.1.result.map (List.map CatalogEntry.name) =
        shownTables ctx config server schema.name type ∧
      KnownSchema ctx config server schema.name { schema.data with tables := out.2 } := by
  have hlisted := ICTableSet.listed_eq_names ctx config schema.name
    (server (config.tablesURL ctx.urlEncode schema.name))
  have hmake : ∀ n, ICTableSet.Filled ctx { config } schema.name [server] n
      (ICTableSet.listedEntry config schema.name n) := fun n hfilled => absurd rfl hfilled
  obtain ⟨hseen, htracks⟩ := h.2.scan_seen (hlists.2 schema.name) hmake
  rw [tableListing, ← hlisted] at hseen htracks
  obtain rfl := hconfig
  cases type with
  | other => exact ⟨rfl, h⟩
  | indexEntry => exact ⟨rfl, h⟩
  | tableEntry | viewEntry => exact ⟨hseen, h.1, htracks⟩

/-! ### Calls -/

/-- The tables of a known schema, as they are after a call. -/
theorem ShowsSchema.setTables {shown : Except Error (Option String)}
    {result : Except Error (Option (CatalogEntry IRCSchemaEntry))}
    {schemas : IRCCatalogSet IRCSchemaEntry} {schema : CatalogEntry IRCSchemaEntry}
    (h : ShowsSchema ctx config server shown result schemas) (hresult : result = .ok (some schema))
    {tables : IRCCatalogSet ICTableEntry}
    (htables : KnownSchema ctx config server schema.name { schema.data with tables }) :
    KnownSchemas ctx config server (AttachedCatalog.setTables schemas schema tables) := by
  obtain ⟨hfind, -⟩ := h.found schema hresult
  obtain ⟨e, he, -, -⟩ := NormMap.mem_of_find? hfind
  obtain ⟨ns, hns, hempty, hloaded⟩ := h.known.resolve_left (List.ne_nil_of_mem he)
  exact Or.inr ⟨ns, hns, hempty, hloaded.update hfind htables⟩

/-- **One call** shows what the server says, and all that is cached is what the server says. -/
theorem Known.perform {defaultSchema : String} {s : AttachedCatalog}
    (h : Known ctx config server defaultSchema s) (hlists : ListsNames ctx config server)
    {call : Call} (hcall : call.GoesTo ctx server) :
    (s.perform ctx call).1.shown = call.shows ctx config defaultSchema ∧
      Known ctx config server defaultSchema (s.perform ctx call).2 := by
  obtain ⟨hcache, hschemas, rfl⟩ := h
  obtain rfl := hcache.1
  cases call with
  | clearCache => exact ⟨rfl, hcache, Or.inl rfl, rfl⟩
  | getSchema server' ifNotFound name =>
    obtain rfl : server' = server := hcall
    obtain ⟨hshows, hknown, -⟩ := hschemas.getSchema hlists s.defaultSchema ifNotFound name
    exact ⟨congrArg Shown.schema hshows, hcache, hknown, rfl⟩
  | scanSchemas server' =>
    obtain rfl : server' = server := hcall
    obtain ⟨hseen, htracks⟩ := hschemas.scan_seen hlists.1 (fun n => knownSchema_listed n)
    rw [schemaListing, ← listedEntries_eq_names] at hseen htracks
    exact ⟨congrArg Shown.schemas hseen, hcache, htracks, rfl⟩
  | getEntry server' ifNotFound schema type name =>
    obtain rfl : server' = server := hcall
    have hschema := hschemas.getSchema hlists s.defaultSchema ifNotFound schema
    unfold AttachedCatalog.perform Call.shows
    dsimp only
    rw [← hschema.shows]
    rcases hrun : AttachedCatalog.getSchema ctx s.catalog.config s.defaultSchema server' ifNotFound
      s.schemas schema with ⟨⟨requests, e | _ | entry⟩, schemas⟩
    all_goals rw [hrun] at hschema
    · exact ⟨rfl, hcache, hschema.known, rfl⟩
    · exact ⟨rfl, hcache, hschema.known, rfl⟩
    · obtain ⟨hshown, hcache', htables⟩ :=
        (hschema.found entry rfl).2.getEntry hlists hcache type name
      exact ⟨congrArg Shown.entry hshown, hcache', hschema.setTables rfl htables, rfl⟩
  | scan server' ifNotFound schema type =>
    obtain rfl : server' = server := hcall
    have hschema := hschemas.getSchema hlists s.defaultSchema ifNotFound schema
    unfold AttachedCatalog.perform Call.shows
    dsimp only
    rw [← hschema.shows]
    rcases hrun : AttachedCatalog.getSchema ctx s.catalog.config s.defaultSchema server' ifNotFound
      s.schemas schema with ⟨⟨requests, e | _ | entry⟩, schemas⟩
    all_goals rw [hrun] at hschema
    · exact ⟨rfl, hcache, hschema.known, rfl⟩
    · exact ⟨rfl, hcache, hschema.known, rfl⟩
    · obtain ⟨hshown, htables⟩ := (hschema.found entry rfl).2.scan hlists rfl type
      exact ⟨congrArg Shown.entries hshown, hcache, hschema.setTables rfl htables, rfl⟩
  | getTableMetadataCached server' now later schema table =>
    obtain ⟨rfl, hlater⟩ := hcall
    obtain ⟨hresult, hnext⟩ := hcache.getTableMetadataCached hlater schema table
    exact ⟨congrArg Shown.metadata hresult, hnext, hschemas, rfl⟩

/-- A catalog that was just attached knows nothing yet. -/
theorem known_attached (ctx : CatalogContext) (config : IRCatalogConfig)
    (server : String → Except Error String) (defaultSchema : String) :
    Known ctx config server defaultSchema ⟨{ config }, {}, defaultSchema⟩ := by
  refine ⟨⟨rfl, fun url value hvalue => ?_⟩, Or.inl rfl, rfl⟩
  rw [NormMap.find?_empty] at hvalue
  cases hvalue

theorem answers_eq_machine (s : AttachedCatalog) (calls : List Call) :
    (s.answers ctx calls).map Answer.shown =
      Machine.answers (fun s call => ((s.perform ctx call).1.shown, (s.perform ctx call).2)) s
        calls := by
  induction calls generalizing s with
  | nil => rfl
  | cons call calls ih => rw [answers, List.map_cons, ih, Machine.answers]

/-- **A server that does not change.**  Of a catalog that was just attached, every call in any run shows
what the server says: the schemas and the tables that it lists, of names that are equal up to case the
first, and the tables as it describes them.  What was cached, and when caches were cleared, makes no
difference. -/
theorem stable_server_seen (ctx : CatalogContext) (config : IRCatalogConfig) (defaultSchema : String)
    {server : String → Except Error String} (hlists : ListsNames ctx config server)
    {calls : List Call} (hcalls : ∀ call ∈ calls, call.GoesTo ctx server) :
    (answers ctx ⟨{ config }, {}, defaultSchema⟩ calls).map Answer.shown =
      calls.map (Call.shows ctx config defaultSchema) := by
  rw [answers_eq_machine]
  exact Machine.answers_eq_map_of_forall (fun s call hs hcall => hs.perform hlists hcall)
    (known_attached ctx config server defaultSchema) hcalls

/-! ### A server with two schemas -/

/-- Lookups and scans, and a clear of the caches between them. -/
def twoSchemasCalls : List Call :=
  [.scanSchemas twoSchemas, .getEntry twoSchemas .throwException "S" .tableEntry "B",
    .getTableMetadataCached twoSchemas 0 0 "s" "b", .clearCache,
    .scan twoSchemas .returnNull "s" .viewEntry, .getEntry twoSchemas .returnNull "s" .tableEntry "c"]

theorem twoSchemas_lists : ListsNames ICTableSet.locatedContext IRCatalogConfig.polaris twoSchemas := by
  have hschemas : schemaListing ICTableSet.locatedContext IRCatalogConfig.polaris twoSchemas =
      .ok ["s", "t"] := by decide +kernel
  have htables : ∀ url, ICTableSet.names ICTableSet.locatedContext IRCatalogConfig.polaris "s"
      (twoSchemas url) ∈ [.ok ["a", "b"], .ok []] := by
    intro url
    unfold twoSchemas
    split_ifs
    all_goals decide +kernel
  constructor
  · rw [schemaListing] at hschemas
    rw [schemaListing, hschemas]
    rintro ⟨names, ⟨⟩, hempty, -⟩
    exact absurd hempty (by decide)
  · intro schema
    rw [tableListing, ICTableSet.names_congr _ _ schema "s"]
    rintro ⟨names, hnames, hempty, -⟩
    have hmem := htables (IRCatalogConfig.polaris.tablesURL
      ICTableSet.locatedContext.urlEncode schema)
    rw [hnames] at hmem
    obtain rfl | rfl : names = ["a", "b"] ∨ names = [] := by simpa using hmem
    · exact absurd hempty (by decide)
    · cases hempty

theorem stable_server_seen_two :
    (answers ICTableSet.locatedContext ⟨{ config := IRCatalogConfig.polaris }, {}, ""⟩
        twoSchemasCalls).map Answer.shown =
      twoSchemasCalls.map (Call.shows ICTableSet.locatedContext IRCatalogConfig.polaris "") := by
  refine stable_server_seen ICTableSet.locatedContext IRCatalogConfig.polaris "" twoSchemas_lists ?_
  simp only [twoSchemasCalls, List.forall_mem_cons]
  exact ⟨rfl, rfl, ⟨rfl, fun _ _ _ _ _ h => h⟩, trivial, rfl, rfl, List.forall_mem_nil _⟩

end AttachedCatalog

end DuckIceberg
