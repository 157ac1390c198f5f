import DuckIceberg.Catalog.WholeCatalog

/-!
# Entries between two clears

The tables of a catalog lie in the sets of its schemas, so `ClearCache`, which clears the schemas,
drops every table as well.  Between two clears the server may change: a table entry that is returned is
of a server that was asked since the last clear, and it is the one that is returned up to the next.

* `perform_schemas`: what a call does to the sets;
* `Sourced.perform`, `Held.perform`: what it keeps;
* `entries_since_clear`: so what any lookup returns, after any run, and what later lookups do.
-/

namespace DuckIceberg

open Strings IRCCatalogSet

namespace IRCCatalogSet

variable {δ : Type} {R : String → δ → Prop} {set : IRCCatalogSet δ} {make : String → δ}

/-- Every entry is stored under its name, and `R` says what its data may be. -/
def Kept (R : String → δ → Prop) (set : IRCCatalogSet δ) : Prop :=
  ∀ e ∈ set.entries.entries, e.2.name = e.1 ∧ R e.1 e.2.data

theorem Kept.mono {R' : String → δ → Prop} (h : Kept R set) (hR : ∀ n d, R n d → R' n d) :
    Kept R' set := fun e he => ⟨(h e he).1, hR _ _ (h e he).2⟩

/-- An entry that is found is found under its name. -/
theorem Kept.find (h : Kept R set) {name : String} {entry : CatalogEntry δ}
    (hfind : set.entries.find? name = some entry) :
    ciEquals entry.name name ∧ R entry.name entry.data ∧
      set.entries.find? entry.name = some entry := by
  obtain ⟨e, he, hlower, rfl⟩ := NormMap.mem_of_find? hfind
  obtain ⟨hname, hR⟩ := h e he
  rw [hname]
  exact ⟨hlower, hR, NormMap.find?_of_mem he rfl⟩

theorem Kept.createEntry (h : Kept R set) {n : String} {d : δ} (hd : R n d) :
    Kept R (set.createEntry n d).2 := by
  rw [IRCCatalogSet.createEntry]
  by_cases hn : n = ""
  · rw [if_pos hn]
    exact h
  · rw [if_neg hn]
    intro e he
    cases hfind : set.entries.find? n with
    | some entry =>
      dsimp only at he
      rw [NormMap.insertNew_of_some hfind] at he
      exact h e he
    | none =>
      dsimp only at he
      rw [NormMap.entries_insertNew_of_none hfind] at he
      rcases List.mem_append.1 he with he | he
      · exact h e he
      · rw [List.mem_singleton.1 he]
        exact ⟨rfl, hd⟩

/-- So loading keeps it, also where it throws. -/
theorem Kept.loadEntries (h : Kept R set) (hmake : ∀ n, R n (make n))
    (listing : Except Error (List String)) :
    Kept R (set.loadEntries (listing.map (entriesOf make))).2 := by
  have hentries : ∀ ns, ∀ set : IRCCatalogSet δ, Kept R set →
      Kept R (createEntries set (entriesOf make ns)).2 := by
    intro ns
    induction ns with
    | nil => exact fun set hset => hset
    | cons n ns ih =>
      intro set hset
      have hnext := hset.createEntry (hmake n)
      rw [entriesOf, List.map_cons, createEntries]
      generalize set.createEntry n (make n) = created at hnext ⊢
      obtain ⟨e | address, set'⟩ := created
      · exact hnext
      · exact ih set' hnext
  by_cases hnil : set.entries.entries = []
  · cases listing with
    | error e =>
      have hload : set.loadEntries ((.error e : Except Error (List String)).map (entriesOf make)) =
          (.error e, set) := if_neg (not_not_intro hnil)
      rw [hload]
      exact h
    | ok ns =>
      rw [Except.map, loadEntries_of_nil make hnil]
      exact hentries ns set h
  · rw [loadEntries_of_ne_nil hnil]
    exact h

/-- Other data for an entry of the set. -/
theorem Kept.update (h : Kept R set) {entry : CatalogEntry δ}
    (hentry : set.entries.find? entry.name = some entry) {data : δ} (hdata : R entry.name data) :
    Kept R { set with entries := set.entries.insert entry.name { entry with data } } := by
  have hentries := NormMap.entries_insert_of_some hentry { entry with data }
  obtain ⟨e, he, hname, rfl⟩ := NormMap.mem_of_find? hentry
  intro x' hx'
  rw [hentries] at hx'
  obtain ⟨x, hx, rfl⟩ := List.mem_map.1 hx'
  by_cases hxname : lower x.1 = lower e.2.name
  · obtain rfl : x = e := NormMap.eq_of_norm_eq hx he (hxname.trans hname.symm)
    rw [if_pos hxname, ← (h x hx).1]
    exact ⟨rfl, hdata⟩
  · rw [if_neg hxname]
    exact h x hx

end IRCCatalogSet

namespace AttachedCatalog

/-! ### One call -/

/-- The server that a call goes to, if it goes to one. -/
def Call.servers : Call → List (String → Except Error String)
  | .getSchema server .. | .scanSchemas server | .getEntry server .. | .scan server ..
  | .getTableMetadataCached server .. => [server]
  | .clearCache => []

/-- The servers that calls went to since the last clear. -/
def serversSince (calls : List Call) : List (String → Except Error String) :=
  calls.foldl (fun servers call =>
    match call with
    | .clearCache => []
    | call => servers ++ call.servers) []

theorem serversSince_clear (calls : List Call) : serversSince (calls ++ [.clearCache]) = [] :=
  List.foldl_concat _ _ _ _

theorem serversSince_concat (calls : List Call) {call : Call} (h : call ≠ .clearCache) :
    serversSince (calls ++ [call]) = serversSince calls ++ call.servers := by
  rw [serversSince, List.foldl_concat]
  cases call with
  | clearCache => exact absurd rfl h
  | getSchema | scanSchemas | getEntry | scan | getTableMetadataCached => rfl

/-- The table that is returned, if one is. -/
def Answer.table? : Answer → Option (CatalogEntry ICTableEntry)
  | .entry ⟨_, .ok table⟩ => table
  | _ => none

theorem table?_eq_some {answer : Answer} {entry : CatalogEntry ICTableEntry} :
    answer.table? = some entry ↔ ∃ requests, answer = .entry ⟨requests, .ok (some entry)⟩ := by
  constructor
  · intro h
    cases answer with
    | entry reply =>
      obtain ⟨requests, e | entry'⟩ := reply
      · cases h
      · obtain rfl : entry' = some entry := h
        exact ⟨requests, rfl⟩
    | schema | schemas | entries | metadata | cleared => cases h
  · rintro ⟨requests, rfl⟩
    rfl

/-- The schema that `GetSchema` looks up for a name, if it looks one up. -/
def schemaName (defaultSchema name : String) : Option String :=
  if name ≠ "main" then some name
  else if defaultSchema = "" ∨ defaultSchema = "main" then none
  else some defaultSchema

section Calls

variable (ctx : CatalogContext) (config : IRCatalogConfig)

/-- The schemas are these, or are loaded from the server. -/
def LoadsFrom (servers : List (String → Except Error String))
    (schemas schemas' : IRCCatalogSet IRCSchemaEntry) : Prop :=
  schemas' = schemas ∨ ∃ server ∈ servers, schemas' = (schemas.loadEntries
    (IRCSchemaSet.listedEntries ctx config (server (config.namespacesURL ctx.urlEncode)))).2

theorem lookup_snd (server : String → Except Error String) (schemas : IRCCatalogSet IRCSchemaEntry)
    (name : String) : (IRCSchemaSet.lookup ctx config server schemas name).2 =
      (schemas.loadEntries (IRCSchemaSet.listedEntries ctx config
        (server (config.namespacesURL ctx.urlEncode)))).2 := by
  unfold IRCSchemaSet.lookup getEntry
  dsimp only
  rcases schemas.loadEntries (IRCSchemaSet.listedEntries ctx config
    (server (config.namespacesURL ctx.urlEncode))) with ⟨e | u, set'⟩
  · rfl
  · dsimp only
    cases set'.entries.find? name <;> rfl

theorem lookup_find? {server : String → Except Error String}
    {schemas : IRCCatalogSet IRCSchemaEntry} {name : String} {schema : CatalogEntry IRCSchemaEntry}
    (h : (IRCSchemaSet.lookup ctx config server schemas name).1 = .ok (some schema)) :
    (IRCSchemaSet.lookup ctx config server schemas name).2.entries.find? name = some schema := by
  unfold IRCSchemaSet.lookup getEntry at h ⊢
  dsimp only at h ⊢
  rcases hload : schemas.loadEntries (IRCSchemaSet.listedEntries ctx config
    (server (config.namespacesURL ctx.urlEncode))) with ⟨e | u, set'⟩
  · rw [hload] at h
    cases h
  · rw [hload] at h
    dsimp only at h ⊢
    cases hentry : set'.entries.find? name with
    | none =>
      rw [hentry] at h
      cases h
    | some entry =>
      rw [hentry] at h
      obtain rfl := Option.some.inj (Except.ok.inj h)
      exact hentry

theorem listedEntries_eq_names (ctx : CatalogContext) (config : IRCatalogConfig)
    (response : Except Error String) :
    IRCSchemaSet.listedEntries ctx config response = (IRCSchemaSet.names ctx config response).map
      (entriesOf fun n => { schemaData := ⟨n, config.name⟩ }) := by
  cases h : IRCAPI.getSchemas ctx config response with
  | error e =>
    rw [IRCSchemaSet.listedEntries, IRCSchemaSet.names, h]
    rfl
  | ok schemas =>
    have hmap : schemas.map (fun schema => .ok (schema.schemaName, { schemaData := schema })) =
        entriesOf (fun n => ({ schemaData := ⟨n, config.name⟩ } : IRCSchemaEntry))
          (schemas.map IRCAPISchema.schemaName) := by
      conv_lhs => rw [getSchemas_eq h]
      rw [entriesOf, List.map_map]
      rfl
    rw [IRCSchemaSet.listedEntries, IRCSchemaSet.names, h]
    exact congrArg Except.ok hmap

variable {ctx config}

theorem getSchema_eq_named {defaultSchema name n : String}
    (h : schemaName defaultSchema name = some n) (server : String → Except Error String)
    (ifNotFound : OnEntryNotFound) (schemas : IRCCatalogSet IRCSchemaEntry) :
    getSchema ctx config defaultSchema server ifNotFound schemas name =
      namedSchema ctx config server ifNotFound schemas n := by
  unfold schemaName at h
  unfold getSchema
  by_cases hmain : name = "main"
  · rw [if_neg (not_not_intro hmain)] at h
    by_cases hdefault : defaultSchema = "" ∨ defaultSchema = "main"
    · rw [if_pos hdefault] at h
      cases h
    · rw [if_neg hdefault] at h
      obtain ⟨hempty, hloop⟩ := not_or.1 hdefault
      rw [if_pos hmain, if_neg hempty, if_neg hloop, Option.some.inj h]
  · rw [if_pos hmain] at h
    rw [if_neg hmain, Option.some.inj h]

/-- It fails where it looks none up, and leaves the schemas. -/
theorem getSchema_none {defaultSchema name : String} (h : schemaName defaultSchema name = none)
    (server : String → Except Error String) (ifNotFound : OnEntryNotFound)
    (schemas : IRCCatalogSet IRCSchemaEntry) :
    let out := getSchema ctx config defaultSchema server ifNotFound schemas name
    out.2 = schemas ∧ ∀ schema, out.1.result ≠ .ok (some schema) := by
  unfold schemaName at h
  unfold getSchema
  split_ifs at h with hmain hdefault
  rw [if_pos (not_not.1 hmain)]
  obtain rfl | rfl := hdefault
  · rw [if_pos rfl]
    split_ifs
    all_goals exact ⟨rfl, by rintro schema ⟨⟩⟩
  · rw [if_neg (by decide), if_pos rfl]
    exact ⟨rfl, by rintro schema ⟨⟩⟩

/-- `GetSchema` loads the schemas at most, and what it finds is under the name. -/
theorem getSchema_cases (defaultSchema : String) (server : String → Except Error String)
    (ifNotFound : OnEntryNotFound) (schemas : IRCCatalogSet IRCSchemaEntry) (name : String) :
    let out := getSchema ctx config defaultSchema server ifNotFound schemas name
    LoadsFrom ctx config [server] schemas out.2 ∧
      ∀ schema, out.1.result = .ok (some schema) → ∃ n, schemaName defaultSchema name = some n ∧
        out.2.entries.find? n = some schema := by
  intro out
  cases hname : schemaName defaultSchema name with
  | none =>
    obtain ⟨hsame, hfails⟩ :
        out.2 = schemas ∧ ∀ schema, out.1.result ≠ .ok (some schema) :=
      getSchema_none hname server ifNotFound schemas
    exact ⟨Or.inl hsame, fun schema h => absurd h (hfails schema)⟩
  | some n =>
    have hout : out = namedSchema ctx config server ifNotFound schemas n :=
      getSchema_eq_named hname server ifNotFound schemas
    have hsnd := lookup_snd ctx config server schemas n
    have hfind := @lookup_find? ctx config server schemas n
    rw [hout]
    unfold namedSchema
    rcases hlookup : IRCSchemaSet.lookup ctx config server schemas n with ⟨e | _ | schema, schemas'⟩
    all_goals rw [hlookup] at hsnd hfind
    · exact ⟨Or.inr ⟨server, List.mem_singleton_self _, hsnd⟩, by rintro schema ⟨⟩⟩
    · dsimp only
      split_ifs
      all_goals exact ⟨Or.inr ⟨server, List.mem_singleton_self _, hsnd⟩, by rintro schema ⟨⟩⟩
    · refine ⟨Or.inr ⟨server, List.mem_singleton_self _, hsnd⟩, ?_⟩
      rintro schema ⟨⟩
      exact ⟨n, rfl, hfind rfl⟩

/-- The tables of a schema are as they were, or as one call leaves them. -/
def CallsTables (ctx : CatalogContext) (catalog : IRCatalog)
    (servers : List (String → Except Error String)) (schema : CatalogEntry IRCSchemaEntry)
    (tables : IRCCatalogSet ICTableEntry) : Prop :=
  tables = schema.data.tables ∨ ∃ call, call ≠ .clearEntries ∧ call.answers ⊆ servers ∧
    tables = (IRCCatalogSet.perform (ICTableSet.listed ctx catalog.config schema.name)
      (ICTableSet.fillEntry ctx schema.name) (catalog, schema.data.tables) call).2

theorem getEntry_callsTables (catalog : IRCatalog) (server : String → Except Error String)
    (schema : CatalogEntry IRCSchemaEntry) (type : CatalogType) (name : String) :
    CallsTables ctx catalog [server] schema
      (IRCSchemaEntry.getEntry ctx catalog server schema type name).2.2 := by
  cases type with
  | other | indexEntry => exact Or.inl rfl
  | tableEntry | viewEntry =>
    exact Or.inr ⟨.getEntry name (server (catalog.config.tablesURL ctx.urlEncode schema.name)) server,
      by rintro ⟨⟩, List.Subset.refl _, rfl⟩

theorem scan_callsTables (catalog : IRCatalog) (server : String → Except Error String)
    (schema : CatalogEntry IRCSchemaEntry) (type : CatalogType) :
    CallsTables ctx catalog [server] schema
      (IRCSchemaEntry.scan ctx catalog.config server schema type).2 := by
  cases type with
  | other | indexEntry => exact Or.inl rfl
  | tableEntry | viewEntry =>
    exact Or.inr ⟨.scan (server (catalog.config.tablesURL ctx.urlEncode schema.name)),
      by rintro ⟨⟩, List.nil_subset _, rfl⟩

/-- **What a call does to the sets**: it loads the schemas at most, and then changes the tables of one
of them at most. -/
theorem perform_schemas (ctx : CatalogContext) (s : AttachedCatalog) {call : Call}
    (hcall : call ≠ .clearCache) :
    ∃ schemas, LoadsFrom ctx s.catalog.config call.servers s.schemas schemas ∧
      ((s.perform ctx call).2.schemas = schemas ∨ ∃ n schema tables,
        schemas.entries.find? n = some schema ∧
          CallsTables ctx s.catalog call.servers schema tables ∧
          (s.perform ctx call).2.schemas = setTables schemas schema tables) := by
  cases call with
  | clearCache => exact absurd rfl hcall
  | getSchema server ifNotFound name =>
    exact ⟨_, (getSchema_cases s.defaultSchema server ifNotFound s.schemas name).1, Or.inl rfl⟩
  | scanSchemas server =>
    refine ⟨_, Or.inr ⟨server, List.mem_singleton_self _, rfl⟩, Or.inl ?_⟩
    unfold AttachedCatalog.perform IRCCatalogSet.scan
    dsimp only
    rcases s.schemas.loadEntries (IRCSchemaSet.listedEntries ctx s.catalog.config
      (server (s.catalog.config.namespacesURL ctx.urlEncode))) with ⟨e | u, set'⟩ <;> rfl
  | getEntry server ifNotFound schema type name =>
    obtain ⟨hloads, hfind⟩ := @getSchema_cases ctx s.catalog.config s.defaultSchema server ifNotFound
      s.schemas schema
    unfold AttachedCatalog.perform
    dsimp only
    rcases hrun : getSchema ctx s.catalog.config s.defaultSchema server ifNotFound s.schemas schema
      with ⟨⟨requests, e | _ | entry⟩, schemas⟩
    all_goals rw [hrun] at hloads hfind
    · exact ⟨schemas, hloads, Or.inl rfl⟩
    · exact ⟨schemas, hloads, Or.inl rfl⟩
    · obtain ⟨n, -, hn⟩ := hfind entry rfl
      exact ⟨schemas, hloads, Or.inr ⟨n, entry, _, hn,
        getEntry_callsTables s.catalog server entry type name, rfl⟩⟩
  | scan server ifNotFound schema type =>
    obtain ⟨hloads, hfind⟩ := @getSchema_cases ctx s.catalog.config s.defaultSchema server ifNotFound
      s.schemas schema
    unfold AttachedCatalog.perform
    dsimp only
    rcases hrun : getSchema ctx s.catalog.config s.defaultSchema server ifNotFound s.schemas schema
      with ⟨⟨requests, e | _ | entry⟩, schemas⟩
    all_goals rw [hrun] at hloads hfind
    · exact ⟨schemas, hloads, Or.inl rfl⟩
    · exact ⟨schemas, hloads, Or.inl rfl⟩
    · obtain ⟨n, -, hn⟩ := hfind entry rfl
      exact ⟨schemas, hloads, Or.inr ⟨n, entry, _, hn,
        scan_callsTables s.catalog server entry type, rfl⟩⟩
  | getTableMetadataCached server now later schema table =>
    exact ⟨s.schemas, Or.inl rfl, Or.inl rfl⟩

/-- A call keeps the configuration and the default schema. -/
theorem perform_config (ctx : CatalogContext) (s : AttachedCatalog) (call : Call) :
    (s.perform ctx call).2.catalog.config = s.catalog.config ∧
      (s.perform ctx call).2.defaultSchema = s.defaultSchema := by
  by_cases htimes : call.times = []
  · obtain ⟨answer, schemas', write, -, hperform⟩ :=
      perform_writes ctx s.catalog.config s.schemas s.defaultSchema htimes
    have hs : s.perform ctx call =
        (answer, ⟨s.catalog.writing write, schemas', s.defaultSchema⟩) := hperform s.catalog rfl
    rw [hs]
    exact ⟨IRCatalog.writing_config _ _, rfl⟩
  · cases call with
    | getTableMetadataCached server now later schema table =>
      obtain ⟨write, -, hs⟩ := lookup_writes ctx s server now later schema table
      rw [hs]
      exact ⟨IRCatalog.writing_config _ _, rfl⟩
    | getSchema | scanSchemas | getEntry | scan | clearCache => exact absurd rfl htimes

/-! ### What is stored -/

/-- A catalog with this configuration, whose table entries are placeholders or of one of these
servers. -/
structure Sourced (ctx : CatalogContext) (config : IRCatalogConfig) (defaultSchema : String)
    (servers : List (String → Except Error String)) (s : AttachedCatalog) : Prop where
  config_eq : s.catalog.config = config
  default_eq : s.defaultSchema = defaultSchema
  schemas : Kept (fun n schema => ICTableSet.Stored ctx { config } n servers schema.tables) s.schemas

variable {defaultSchema : String} {servers : List (String → Except Error String)}
  {s : AttachedCatalog}

theorem CallsTables.stored {catalog : IRCatalog} {servers' : List (String → Except Error String)}
    {schema : CatalogEntry IRCSchemaEntry} {tables : IRCCatalogSet ICTableEntry}
    (h : CallsTables ctx catalog servers' schema tables) (hconfig : catalog.config = config)
    (hstored : ICTableSet.Stored ctx { config } schema.name servers schema.data.tables) :
    ICTableSet.Stored ctx { config } schema.name (servers ++ servers') tables := by
  rcases h with rfl | ⟨call, -, hsub, rfl⟩
  · exact hstored.mono (List.subset_append_left _ _)
  · rw [hconfig]
    have hnext : ICTableSet.Stored ctx { config } schema.name (servers ++ call.answers)
        (IRCCatalogSet.perform (ICTableSet.listed ctx config schema.name)
          (ICTableSet.fillEntry ctx schema.name) (catalog, schema.data.tables) call).2 :=
      ICTableSet.Stored.perform hconfig hstored call
    exact hnext.mono (List.append_subset.2 ⟨List.subset_append_left _ _,
      List.Subset.trans hsub (List.subset_append_right _ _)⟩)

/-- The schemas that are loaded have no tables. -/
theorem LoadsFrom.kept {servers' : List (String → Except Error String)}
    {schemas schemas' : IRCCatalogSet IRCSchemaEntry}
    (h : LoadsFrom ctx config servers' schemas schemas')
    (hkept : Kept (fun n schema => ICTableSet.Stored ctx { config } n servers schema.tables)
      schemas) :
    Kept (fun n schema => ICTableSet.Stored ctx { config } n servers schema.tables) schemas' := by
  rcases h with rfl | ⟨server, -, rfl⟩
  · exact hkept
  · have hmake : ∀ n, ICTableSet.Stored ctx { config } n servers
        ({ schemaData := ⟨n, config.name⟩ } : IRCSchemaEntry).tables := fun n =>
      List.forall_mem_nil _
    rw [listedEntries_eq_names]
    exact hkept.loadEntries hmake _

/-- **A call** stores what it fetches from its server. -/
theorem Sourced.perform (h : Sourced ctx config defaultSchema servers s) {call : Call}
    (hcall : call ≠ .clearCache) :
    Sourced ctx config defaultSchema (servers ++ call.servers) (s.perform ctx call).2 := by
  obtain ⟨hconfig, hdefault⟩ := perform_config ctx s call
  obtain rfl := h.config_eq
  refine ⟨hconfig, hdefault.trans h.default_eq, ?_⟩
  obtain ⟨schemas, hloads, hschemas⟩ := perform_schemas ctx s hcall
  have hkept := hloads.kept h.schemas
  have hmono := hkept.mono fun n schema hstored =>
    hstored.mono (List.subset_append_left servers call.servers)
  rcases hschemas with hsame | ⟨n, schema, tables, hfind, hcalls, hset⟩
  · rw [hsame]
    exact hmono
  · obtain ⟨-, hstored, hname⟩ := hkept.find hfind
    rw [hset]
    exact hmono.update hname (hcalls.stored rfl hstored)

/-- So does a run, since the last clear. -/
theorem performAll_sourced (ctx : CatalogContext) (config : IRCatalogConfig) (defaultSchema : String)
    (calls : List Call) : Sourced ctx config defaultSchema (serversSince calls)
      (performAll ctx ⟨{ config }, {}, defaultSchema⟩ calls) := by
  induction calls using List.reverseRecOn with
  | nil => exact ⟨rfl, rfl, List.forall_mem_nil _⟩
  | append_singleton calls call ih =>
    rw [performAll_concat]
    by_cases hclear : call = .clearCache
    · rw [hclear, serversSince_clear]
      exact ⟨ih.config_eq, ih.default_eq, List.forall_mem_nil _⟩
    · rw [serversSince_concat calls hclear]
      exact ih.perform hclear

/-! ### What is held -/

/-- The schema has this table entry, and it is filled. -/
structure Held (schema name : String) (entry : CatalogEntry ICTableEntry) (s : AttachedCatalog) :
    Prop where
  found : ∃ schemaEntry, s.schemas.entries.find? schema = some schemaEntry ∧
    schemaEntry.data.tables.entries.find? name = some entry
  filled : entry.data.tableData.storageLocation ≠ ""

variable {schema name : String} {entry : CatalogEntry ICTableEntry}

theorem ne_nil_of_find? {δ : Type} {set : IRCCatalogSet δ} {name : String} {entry : CatalogEntry δ}
    (h : set.entries.find? name = some entry) : set.entries.entries ≠ [] := by
  obtain ⟨e, he, -⟩ := NormMap.mem_of_find? h
  exact List.ne_nil_of_mem he

theorem CallsTables.held {catalog : IRCatalog} {schemaEntry : CatalogEntry IRCSchemaEntry}
    {tables : IRCCatalogSet ICTableEntry} (h : CallsTables ctx catalog servers schemaEntry tables)
    (hfind : schemaEntry.data.tables.entries.find? name = some entry)
    (hfilled : entry.data.tableData.storageLocation ≠ "") :
    tables.entries.find? name = some entry := by
  rcases h with rfl | ⟨call, hclear, -, rfl⟩
  · exact hfind
  · exact ICTableSet.perform_held hfind hfilled hclear

/-- **A call** other than `ClearCache` leaves the entry where it is. -/
theorem Held.perform (h : Held schema name entry s) (hs : Sourced ctx config defaultSchema servers s)
    {call : Call} (hcall : call ≠ .clearCache) :
    Held schema name entry (s.perform ctx call).2 := by
  obtain ⟨⟨schemaEntry, hschema, htable⟩, hfilled⟩ := h
  refine ⟨?_, hfilled⟩
  obtain ⟨schemas, hloads, hschemas⟩ := perform_schemas ctx s hcall
  -- the schemas are loaded
  obtain rfl : schemas = s.schemas := by
    rcases hloads with hsame | ⟨server, -, hload⟩
    · exact hsame
    · rw [hload, loadEntries_of_ne_nil (ne_nil_of_find? hschema)]
  rcases hschemas with hsame | ⟨n, changed, tables, hfind, hcalls, hset⟩
  · rw [hsame]
    exact ⟨schemaEntry, hschema, htable⟩
  · rw [hset]
    obtain ⟨-, -, hname⟩ := hs.schemas.find hfind
    by_cases heq : ciEquals changed.name schema
    · -- this is the schema of the entry
      rw [NormMap.find?_congr _ heq, hschema] at hname
      obtain rfl := Option.some.inj hname
      refine ⟨_, (NormMap.find?_insert ..).trans (if_pos heq), ?_⟩
      exact hcalls.held htable hfilled
    · exact ⟨schemaEntry, (NormMap.find?_insert ..).trans ((if_neg heq).trans hschema), htable⟩

/-- **A lookup** of an entry that is held requests nothing. -/
theorem Held.lookup (h : Held schema name entry s) {schema' n name' : String}
    (hn : schemaName s.defaultSchema schema' = some n) (hschema' : ciEquals n schema)
    (hname' : ciEquals name' name) {type : CatalogType} (htype : type = .tableEntry ∨ type = .viewEntry)
    (server : String → Except Error String) (ifNotFound : OnEntryNotFound) :
    (s.perform ctx (.getEntry server ifNotFound schema' type name')).1 =
      .entry ⟨[], .ok (some entry)⟩ := by
  obtain ⟨⟨schemaEntry, hschema, htable⟩, hfilled⟩ := h
  have hfind : s.schemas.entries.find? n = some schemaEntry :=
    (NormMap.find?_congr _ hschema').trans hschema
  have hloaded := ne_nil_of_find? hschema
  have hlookup : IRCSchemaSet.lookup ctx s.catalog.config server s.schemas n =
      (.ok (some schemaEntry), s.schemas) := by
    unfold IRCSchemaSet.lookup getEntry
    dsimp only
    rw [loadEntries_of_ne_nil hloaded]
    dsimp only
    rw [hfind]
  have hgetSchema : getSchema ctx s.catalog.config s.defaultSchema server ifNotFound s.schemas schema' =
      (⟨[], .ok (some schemaEntry)⟩, s.schemas) := by
    rw [getSchema_eq_named hn, namedSchema, hlookup]
    simp only [loadRequests, if_pos hloaded]
  set load := ICTableSet.listed ctx s.catalog.config schemaEntry.name
    (server (s.catalog.config.tablesURL ctx.urlEncode schemaEntry.name)) with hload
  obtain ⟨hget, hrequests⟩ := @ICTableSet.getEntry_held ctx schemaEntry.name server
    (s.catalog, schemaEntry.data.tables) name entry htable hfilled name' hname' load
  have hentry : IRCSchemaEntry.getEntry ctx s.catalog server schemaEntry type name' =
      (⟨[], .ok (some entry)⟩, s.catalog, schemaEntry.data.tables) := by
    have htables := ne_nil_of_find? htable
    rcases htype with rfl | rfl
    all_goals
      unfold IRCSchemaEntry.getEntry IRCSchemaEntry.getCatalogSet
      dsimp only
      rw [← hload, hget, hrequests, loadRequests, if_pos htables]
      rfl
  simp only [AttachedCatalog.perform, hgetSchema, hentry, List.append_nil]

theorem Held.performAll (h : Held schema name entry s)
    (hs : Sourced ctx config defaultSchema servers s) {later : List Call}
    (hlater : .clearCache ∉ later) : Held schema name entry (s.performAll ctx later) ∧
      ∃ servers', Sourced ctx config defaultSchema servers' (s.performAll ctx later) := by
  induction later using List.reverseRecOn with
  | nil => exact ⟨h, servers, hs⟩
  | append_singleton later call ih =>
    obtain ⟨hbefore, hcall⟩ : .clearCache ∉ later ∧ call ≠ .clearCache := by
      simpa [not_or, eq_comm] using hlater
    obtain ⟨hheld, servers', hsourced⟩ := ih hbefore
    rw [performAll_concat]
    exact ⟨hheld.perform hsourced hcall, _, hsourced.perform hcall⟩

/-- What a lookup returns is filled, of a server that was asked, and held from then on. -/
theorem Sourced.getEntry (h : Sourced ctx config defaultSchema servers s)
    {server : String → Except Error String} (hserver : ICTableSet.NonemptyLocations ctx server)
    {ifNotFound : OnEntryNotFound} {type : CatalogType} {requests : List String}
    (hanswer : (s.perform ctx (.getEntry server ifNotFound schema type name)).1 =
      .entry ⟨requests, .ok (some entry)⟩) :
    ∃ n m, schemaName defaultSchema schema = some n ∧ ciEquals m n ∧ ciEquals entry.name name ∧
      (∃ server' ∈ servers ++ [server],
        ICTableSet.FromServer ctx { config } m server' entry.name entry.data) ∧
      Held n name entry (s.perform ctx (.getEntry server ifNotFound schema type name)).2 := by
  obtain ⟨rfl, rfl, hkept⟩ := h
  obtain ⟨hloads, hfind⟩ := @getSchema_cases ctx s.catalog.config s.defaultSchema server ifNotFound
    s.schemas schema
  replace hkept := hloads.kept hkept
  unfold AttachedCatalog.perform at hanswer ⊢
  dsimp only at hanswer ⊢
  rcases hrun : getSchema ctx s.catalog.config s.defaultSchema server ifNotFound s.schemas schema
    with ⟨⟨requests', e | _ | schemaEntry⟩, schemas⟩
  all_goals rw [hrun] at hanswer hfind hkept
  · cases hanswer
  · cases hanswer
  · obtain ⟨n, hn, hschema⟩ := hfind schemaEntry rfl
    obtain ⟨hname, hstored, -⟩ := hkept.find hschema
    have htables : ∀ out, out = IRCCatalogSet.getEntry (ICTableSet.listed ctx s.catalog.config
        schemaEntry.name (server (s.catalog.config.tablesURL ctx.urlEncode schemaEntry.name)))
        (ICTableSet.fillEntry ctx schemaEntry.name server) s.catalog schemaEntry.data.tables name →
        out.1 = .ok (some entry) → ∃ n m, schemaName s.defaultSchema schema = some n ∧
          ciEquals m n ∧ ciEquals entry.name name ∧
          (∃ server' ∈ servers ++ [server], ICTableSet.FromServer ctx { config := s.catalog.config }
            m server' entry.name entry.data) ∧
          Held n name entry ⟨out.2.1, setTables schemas schemaEntry out.2.2, s.defaultSchema⟩ := by
      rintro out rfl hout
      obtain ⟨hentry, hfilled, hfrom, hheld⟩ :=
        @ICTableSet.getEntry_filled ctx { config := s.catalog.config } schemaEntry.name server
          (s.catalog, schemaEntry.data.tables) rfl servers hstored hserver name _ entry hout
      set out := IRCCatalogSet.getEntry (ICTableSet.listed ctx s.catalog.config schemaEntry.name
        (server (s.catalog.config.tablesURL ctx.urlEncode schemaEntry.name)))
        (ICTableSet.fillEntry ctx schemaEntry.name server) s.catalog schemaEntry.data.tables name
      have hset : (setTables schemas schemaEntry out.2.2).entries.find? n =
          some { schemaEntry with data := { schemaEntry.data with tables := out.2.2 } } :=
        (NormMap.find?_insert ..).trans (if_pos hname)
      exact ⟨n, schemaEntry.name, hn, hname, hentry, hfrom, ⟨_, hset, hheld⟩, hfilled⟩
    cases type with
    | other => cases hanswer
    | indexEntry => cases hanswer
    | tableEntry | viewEntry =>
      exact htables _ rfl (congrArg Reply.result (Answer.entry.inj hanswer))

/-- **What is returned is fresh since the last clear**: after any run, with servers that change, a table
entry that a lookup returns is filled, and of an answer of a server that was asked since the caches were
cleared, for the name of the entry in the schema that was looked up.  Until they are cleared again,
every lookup of this table returns this entry, and requests nothing. -/
theorem entries_since_clear (ctx : CatalogContext) (config : IRCatalogConfig) (defaultSchema : String)
    (calls : List Call) {server : String → Except Error String}
    (hserver : ICTableSet.NonemptyLocations ctx server) (ifNotFound : OnEntryNotFound)
    (schema : String) (type : CatalogType) (name : String) :
    let s := performAll ctx ⟨{ config }, {}, defaultSchema⟩ calls
    let out := s.perform ctx (.getEntry server ifNotFound schema type name)
    ∀ entry, out.1.table? = some entry →
      ∃ n m, schemaName defaultSchema schema = some n ∧ ciEquals m n ∧ ciEquals entry.name name ∧
        entry.data.tableData.storageLocation ≠ "" ∧
        (∃ server' ∈ serversSince calls ++ [server],
          ICTableSet.FromServer ctx { config } m server' entry.name entry.data) ∧
        ∀ later, .clearCache ∉ later → ∀ server' ifNotFound' schema' type' name' n',
          type' = .tableEntry ∨ type' = .viewEntry → schemaName defaultSchema schema' = some n' →
          ciEquals n' n → ciEquals name' name →
          ((out.2.performAll ctx later).perform ctx
            (.getEntry server' ifNotFound' schema' type' name')).1 =
              .entry ⟨[], .ok (some entry)⟩ := by
  intro s out entry htable
  obtain ⟨requests, hanswer⟩ := table?_eq_some.1 htable
  have hsourced := performAll_sourced ctx config defaultSchema calls
  obtain ⟨n, m, hn, hm, hentry, hfrom, hheld⟩ := hsourced.getEntry hserver hanswer
  refine ⟨n, m, hn, hm, hentry, hheld.filled, hfrom, ?_⟩
  intro later hlater server' ifNotFound' schema' type' name' n' htype hn' hschema' hname'
  have hnext : Sourced ctx config defaultSchema _ out.2 := hsourced.perform (by rintro ⟨⟩)
  obtain ⟨hheld', servers', hlast⟩ := hheld.performAll hnext hlater
  refine hheld'.lookup ?_ hschema' hname' htype server' ifNotFound'
  rw [hlast.default_eq]
  exact hn'

end Calls

/-! ### A server with two schemas -/

/-- It lists the tables of one of them, and describes all tables alike. -/
def twoSchemas (url : String) : Except Error String :=
  if url = IRCatalogConfig.polaris.namespacesURL id then .ok namespacesText
  else if url = IRCatalogConfig.polaris.tablesURL id "s" then .ok tablesText
  else .ok ICTableSet.locatedText

theorem twoSchemas_located : ICTableSet.NonemptyLocations ICTableSet.locatedContext twoSchemas := by
  rintro url text root location htext hroot hlocation rfl
  have hread : ∀ text ∈ [namespacesText, tablesText, ICTableSet.locatedText],
      (apiResultToDoc ICTableSet.locatedContext text >>= fun root =>
        IcebergUtils.tryGetStrFromObject root "metadata-location") ≠ .ok "" := by decide +kernel
  have hmem : text ∈ [namespacesText, tablesText, ICTableSet.locatedText] := by
    unfold twoSchemas at htext
    split_ifs at htext
    all_goals
      cases htext
      simp
  refine hread text hmem ?_
  rw [hroot]
  exact hlocation

/-- The catalog after a lookup that another server answered, and a clear. -/
def clearedCatalog : AttachedCatalog :=
  performAll ICTableSet.locatedContext ⟨{ config := IRCatalogConfig.polaris }, {}, ""⟩
    [.getEntry (fun _ => .error ⟨.io, "no connection"⟩) .throwException "s" .tableEntry "b",
      .getEntry twoSchemas .throwException "s" .tableEntry "b", .clearCache]

/-- A table that was fetched before the caches were cleared is fetched again. -/
theorem entries_since_clear_two :
    ∃ entry, (clearedCatalog.perform ICTableSet.locatedContext
        (.getEntry twoSchemas .throwException "S" .tableEntry "B")).1.table? = some entry ∧
      ciEquals entry.name "B" ∧ ∃ m, ∃ server' ∈ [twoSchemas], ICTableSet.FromServer
        ICTableSet.locatedContext { config := IRCatalogConfig.polaris } m server' entry.name
          entry.data := by
  have hsome : ((clearedCatalog.perform ICTableSet.locatedContext
      (.getEntry twoSchemas .throwException "S" .tableEntry "B")).1.table?).isSome = true := by
    decide +kernel
  obtain ⟨entry, hentry⟩ := Option.isSome_iff_exists.1 hsome
  obtain ⟨n, m, -, -, hname, -, hfrom, -⟩ := entries_since_clear ICTableSet.locatedContext
    IRCatalogConfig.polaris "" _ twoSchemas_located .throwException "S" .tableEntry "B" entry hentry
  exact ⟨entry, hentry, hname, m, hfrom⟩

end AttachedCatalog

end DuckIceberg
