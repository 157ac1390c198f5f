import DuckIceberg.Catalog.AtomicLoads

/-!
# Tables that are filled

An entry of an `ICTableSet` is a placeholder until `FillEntry` has requested the metadata of its table
and has put another entry in its place.  `GetEntry` fills what it finds, so what it returns is of an
answer of the server for the name the entry is stored under (`entries_filled`), and it stays until
`ClearEntries`.
-/

namespace DuckIceberg

open Strings Json IcebergUtils ICUtils IRCAPI IRCCatalogSet

namespace ICTableSet

variable {ctx : CatalogContext} {catalog : IRCatalog} {schema : String}
  {server : String → Except Error String}

/-! ### What is fetched -/

/-- The entry has the storage location and the columns of what this server answers to the request for
the table's metadata. -/
def FromServer (ctx : CatalogContext) (catalog : IRCatalog) (schema : String)
    (server : String → Except Error String) (name : String) (data : ICTableEntry) : Prop :=
  ∃ text root, server (catalog.config.tableURL ctx.urlEncode schema name) = .ok text ∧
    apiResultToDoc ctx text = .ok root ∧
    populateTableMetadata (createTable catalog.config schema name) root = .ok data.tableData ∧
    createColumns ctx data.tableData = .ok data.columns

/-- Where this server answers with a `metadata-location`, that is not empty. -/
def NonemptyLocations (ctx : CatalogContext) (server : String → Except Error String) : Prop :=
  ∀ url text root location, server url = .ok text → apiResultToDoc ctx text = .ok root →
    tryGetStrFromObject root "metadata-location" = .ok location → location ≠ ""

theorem getTableMetadata_ok {name text : String} {response : Except Error String}
    (h : (catalog.getTableMetadata ctx schema name response).1 = .ok text) : response = .ok text := by
  cases response with
  | error e => cases h
  | ok answer =>
    rw [IRCatalog.getTableMetadata] at h
    generalize catalog.setCachedValue ctx _ answer = out at h
    obtain ⟨e | u, catalog'⟩ := out
    · cases h
    · exact h

theorem fromServer_of_fetches {name : String} {data : ICTableEntry}
    (h : fetches ctx catalog schema server name = .ok data) :
    FromServer ctx catalog schema server name data := by
  obtain ⟨entry, hentry, rfl⟩ : ∃ entry,
      (fetchEntry ctx catalog schema server name).1 = .ok entry ∧ entry.2 = data := by
    rw [fetches] at h
    cases hfetch : (fetchEntry ctx catalog schema server name).1 with
    | error e =>
      rw [hfetch] at h
      cases h
    | ok entry =>
      rw [hfetch] at h
      exact ⟨entry, rfl, Except.ok.inj h⟩
  rw [fetchEntry_fst, getTableWithCredentials_fst] at hentry
  obtain ⟨table, htable, hentry⟩ := bind_eq_ok.1 hentry
  obtain ⟨columns, hcolumns, hentry⟩ := bind_eq_ok.1 hentry
  cases hentry
  obtain ⟨text, htext, htable⟩ := bind_eq_ok.1 htable
  obtain ⟨root, hroot, htable⟩ := bind_eq_ok.1 htable
  exact ⟨text, root, getTableMetadata_ok htext, hroot, htable, hcolumns⟩

theorem populateTableMetadata_location {table table' : IRCAPITable} {root : Option Json}
    (h : populateTableMetadata table root = .ok table') :
    tryGetStrFromObject root "metadata-location" = .ok table'.storageLocation := by
  unfold populateTableMetadata at h
  obtain ⟨storageLocation, hlocation, h⟩ := bind_eq_ok.1 h
  obtain ⟨currentSchemaId, -, h⟩ := bind_eq_ok.1 h
  obtain ⟨found, -, h⟩ := bind_eq_ok.1 h
  split_ifs at h
  · cases h
  · cases h
    exact hlocation

/-- What such a server answers fills an entry. -/
theorem FromServer.location_ne (hserver : NonemptyLocations ctx server) {name : String}
    {data : ICTableEntry} (h : FromServer ctx catalog schema server name data) :
    data.tableData.storageLocation ≠ "" := by
  obtain ⟨text, root, htext, hroot, htable, -⟩ := h
  exact hserver _ text root _ htext hroot (populateTableMetadata_location htable)

/-! ### What is stored -/

/-- Every entry is stored under its name, and is a placeholder or of an answer of one of these
servers. -/
def Stored (ctx : CatalogContext) (catalog : IRCatalog) (schema : String)
    (servers : List (String → Except Error String)) (set : IRCCatalogSet ICTableEntry) : Prop :=
  ∀ e ∈ set.entries.entries, e.2.name = e.1 ∧
    Filled ctx catalog schema servers e.1 e.2.data

theorem Stored.mono {servers servers' : List (String → Except Error String)}
    (hsub : servers ⊆ servers') {set : IRCCatalogSet ICTableEntry}
    (h : Stored ctx catalog schema servers set) : Stored ctx catalog schema servers' set := by
  intro e he
  refine ⟨(h e he).1, fun hlocation => ?_⟩
  obtain ⟨server, hserver, hfetches⟩ := (h e he).2 hlocation
  exact ⟨server, hsub hserver, hfetches⟩

theorem Stored.createEntry {servers : List (String → Except Error String)}
    {set : IRCCatalogSet ICTableEntry} (h : Stored ctx catalog schema servers set) (n : String) :
    Stored ctx catalog schema servers
      (set.createEntry n (listedEntry catalog.config schema n)).2 := by
  rw [IRCCatalogSet.createEntry]
  by_cases hn : n = ""
  · rw [if_pos hn]
    exact h
  · rw [if_neg hn]
    cases hfind : set.entries.find? n with
    | some entry =>
      intro e he
      dsimp only at he
      rw [NormMap.insertNew_of_some hfind] at he
      exact h e he
    | none =>
      intro e he
      dsimp only at he
      rw [NormMap.entries_insertNew_of_none hfind] at he
      rcases List.mem_append.1 he with he | he
      · exact h e he
      · rw [List.mem_singleton.1 he]
        exact ⟨rfl, fun hlocation => absurd rfl hlocation⟩

theorem Stored.createEntries {servers : List (String → Except Error String)} {ns : List String}
    {set : IRCCatalogSet ICTableEntry} (h : Stored ctx catalog schema servers set) :
    Stored ctx catalog schema servers
      (IRCCatalogSet.createEntries set (entriesOf (listedEntry catalog.config schema) ns)).2 := by
  induction ns generalizing set with
  | nil => exact h
  | cons n ns ih =>
    have hnext := h.createEntry n
    rw [entriesOf, List.map_cons, IRCCatalogSet.createEntries]
    generalize set.createEntry n (listedEntry catalog.config schema n) = created at hnext ⊢
    obtain ⟨e | address, set'⟩ := created
    · exact hnext
    · exact ih hnext

/-- Loading makes placeholders, also where it throws. -/
theorem Stored.loadEntries {servers : List (String → Except Error String)}
    {set : IRCCatalogSet ICTableEntry} (h : Stored ctx catalog schema servers set)
    (response : Except Error String) :
    Stored ctx catalog schema servers
      (set.loadEntries (listed ctx catalog.config schema response)).2 := by
  rw [listed_eq_names]
  by_cases hempty : set.entries.entries = []
  · cases names ctx catalog.config schema response with
    | error e =>
      have hload : set.loadEntries ((.error e : Except Error (List String)).map
          (entriesOf (listedEntry catalog.config schema))) = (.error e, set) :=
        if_neg (not_not_intro hempty)
      rw [hload]
      exact h
    | ok ns =>
      have hload : set.loadEntries ((.ok ns : Except Error (List String)).map
          (entriesOf (listedEntry catalog.config schema))) =
            IRCCatalogSet.createEntries set (entriesOf (listedEntry catalog.config schema) ns) :=
        loadEntries_of_nil _ hempty ns
      rw [hload]
      exact h.createEntries
  · rw [loadEntries_of_ne_nil hempty]
    exact h

/-! ### One lookup -/

/-- The metadata requests of `GetEntry` -/
def metadataRequests (ctx : CatalogContext) (catalog : IRCatalog) (schema : String)
    (load : Except Error (List (Except Error (String × ICTableEntry))))
    (set : IRCCatalogSet ICTableEntry) (name : String) : List String :=
  match set.loadEntries load with
  | (.error _, _) => []
  | (.ok _, set) =>
    match set.entries.find? name with
    | none => []
    | some entry =>
      if entry.data.tableData.storageLocation ≠ "" then []
      else [catalog.config.tableURL ctx.urlEncode schema entry.name]

/-- What `FillEntry` does: nothing to an entry that is filled, and else it throws what the fetch throws
or makes what was fetched. -/
theorem fillEntry_cases (ctx : CatalogContext) (schema : String)
    (server : String → Except Error String) {state : IRCatalog}
    (hstate : state.config = catalog.config) (entry : CatalogEntry ICTableEntry) :
    (entry.data.tableData.storageLocation ≠ "" ∧
        fillEntry ctx schema server state entry = (.ok none, state)) ∨
      entry.data.tableData.storageLocation = "" ∧
        ((∃ e, (fillEntry ctx schema server state entry).1 = .error e) ∨
          ∃ data, (fillEntry ctx schema server state entry).1 = .ok (some (entry.name, data)) ∧
            fetches ctx catalog schema server entry.name = .ok data) := by
  by_cases hfilled : entry.data.tableData.storageLocation ≠ ""
  · exact Or.inl ⟨hfilled, if_pos hfilled⟩
  · refine Or.inr ⟨not_not.1 hfilled, ?_⟩
    have hcongr : (fetchEntry ctx state schema server entry.name).1 =
        (fetchEntry ctx catalog schema server entry.name).1 := fetchEntry_congr hstate entry.name
    rw [fillEntry, if_neg hfilled]
    rcases hrun : fetchEntry ctx state schema server entry.name with ⟨e | ⟨n, data⟩, state'⟩
    · exact Or.inl ⟨e, rfl⟩
    · rw [hrun] at hcongr
      obtain rfl : n = entry.name := fetchEntry_name hcongr.symm
      refine Or.inr ⟨data, rfl, ?_⟩
      rw [fetches, ← hcongr]
      rfl

/-- The catalog keeps its configuration. -/
theorem perform_config {s : IRCatalog × IRCCatalogSet ICTableEntry} (hs : s.1.config = catalog.config)
    (call : SetCall (String → Except Error String)) :
    (perform (listed ctx catalog.config schema) (fillEntry ctx schema) s call).1.config =
      catalog.config := by
  cases call with
  | clearEntries => exact hs
  | scan response => exact hs
  | getEntry name response server =>
    rw [perform, getEntry]
    rcases s.2.loadEntries (listed ctx catalog.config schema response) with ⟨e | u, set'⟩
    · exact hs
    · dsimp only
      cases set'.entries.find? name with
      | none => exact hs
      | some entry =>
        have hconfig : (fillEntry ctx schema server s.1 entry).2.config = s.1.config :=
          fillEntry_config s.1 entry
        dsimp only
        rcases hrun : fillEntry ctx schema server s.1 entry with ⟨e | _ | ⟨n, d⟩, state'⟩
        all_goals
          rw [hrun] at hconfig
          exact hconfig.trans hs

/-- A lookup that finds an entry returns it, when it is filled; else it throws and leaves the set as it
was loaded, or puts what was fetched in its place. -/
theorem getEntry_found (ctx : CatalogContext) (schema : String)
    (server : String → Except Error String) {s : IRCatalog × IRCCatalogSet ICTableEntry}
    (hs : s.1.config = catalog.config)
    {load : Except Error (List (Except Error (String × ICTableEntry)))}
    {set' : IRCCatalogSet ICTableEntry} {name : String} {entry : CatalogEntry ICTableEntry}
    (hload : s.2.loadEntries load = (.ok (), set')) (hfind : set'.entries.find? name = some entry) :
    (entry.data.tableData.storageLocation ≠ "" ∧
        getEntry load (fillEntry ctx schema server) s.1 s.2 name = (.ok (some entry), s.1, set')) ∨
      entry.data.tableData.storageLocation = "" ∧
        ((∃ e state', (fillEntry ctx schema server s.1 entry).1 = .error e ∧
            getEntry load (fillEntry ctx schema server) s.1 s.2 name = (.error e, state', set')) ∨
          ∃ data state', fetches ctx catalog schema server entry.name = .ok data ∧
            (∀ e, (fillEntry ctx schema server s.1 entry).1 ≠ .error e) ∧
            getEntry load (fillEntry ctx schema server) s.1 s.2 name =
              (.ok (some ⟨set'.nextAddress, entry.name, data⟩), state',
                { entries := set'.entries.insert name ⟨set'.nextAddress, entry.name, data⟩
                  nextAddress := set'.nextAddress + 1 })) := by
  rw [getEntry, hload]
  dsimp only
  rw [hfind]
  dsimp only
  rcases fillEntry_cases ctx schema server hs entry with
    ⟨hfilled, hfill⟩ | ⟨hplaceholder, ⟨e, hfill⟩ | ⟨data, hfill, hfetches⟩⟩
  · rw [hfill]
    exact Or.inl ⟨hfilled, rfl⟩
  · refine Or.inr ⟨hplaceholder, Or.inl ?_⟩
    generalize fillEntry ctx schema server s.1 entry = out at hfill ⊢
    obtain ⟨result, state'⟩ := out
    dsimp only at hfill
    subst hfill
    exact ⟨e, state', rfl, rfl⟩
  · refine Or.inr ⟨hplaceholder, Or.inr ?_⟩
    generalize fillEntry ctx schema server s.1 entry = out at hfill ⊢
    obtain ⟨result, state'⟩ := out
    dsimp only at hfill
    subst hfill
    exact ⟨data, state', hfetches, fun _ h => (by cases h), rfl⟩

/-- An entry that takes the place of another was fetched. -/
theorem Stored.insert {servers : List (String → Except Error String)}
    {set : IRCCatalogSet ICTableEntry} (h : Stored ctx catalog schema servers set)
    (hserver : server ∈ servers) {name : String} {entry : CatalogEntry ICTableEntry}
    (hfind : set.entries.find? name = some entry) {data : ICTableEntry}
    (hfetches : fetches ctx catalog schema server entry.name = .ok data) (address nextAddress : ℕ) :
    Stored ctx catalog schema servers
      { entries := set.entries.insert name ⟨address, entry.name, data⟩, nextAddress } := by
  obtain ⟨e, he, hname, rfl⟩ := NormMap.mem_of_find? hfind
  intro x hx
  dsimp only at hx
  rw [NormMap.entries_insert_of_some hfind] at hx
  obtain ⟨y, hy, rfl⟩ := List.mem_map.1 hx
  by_cases hyname : lower y.1 = lower name
  · obtain rfl : y = e := NormMap.eq_of_norm_eq hy he (hyname.trans hname.symm)
    rw [if_pos hyname]
    refine ⟨(h y hy).1, fun _ => ⟨server, hserver, ?_⟩⟩
    rw [← (h y hy).1]
    exact hfetches
  · rw [if_neg hyname]
    exact h y hy

/-- **One call** stores placeholders, and what is fetched for the names of the entries. -/
theorem Stored.perform {servers : List (String → Except Error String)}
    {s : IRCatalog × IRCCatalogSet ICTableEntry} (hs : s.1.config = catalog.config)
    (h : Stored ctx catalog schema servers s.2) (call : SetCall (String → Except Error String)) :
    Stored ctx catalog schema (servers ++ call.answers)
      (IRCCatalogSet.perform (listed ctx catalog.config schema) (fillEntry ctx schema) s call).2 := by
  have hmono := h.mono (List.subset_append_left servers call.answers)
  cases call with
  | clearEntries => exact List.forall_mem_nil _
  | scan response =>
    have hloaded := hmono.loadEntries response
    rw [IRCCatalogSet.perform, scan]
    generalize s.2.loadEntries (listed ctx catalog.config schema response) = load at hloaded ⊢
    obtain ⟨e | u, set'⟩ := load
    · exact hloaded
    · exact hloaded
  | getEntry name response server =>
    have hloaded := hmono.loadEntries response
    rw [IRCCatalogSet.perform]
    rcases hload : s.2.loadEntries (listed ctx catalog.config schema response) with ⟨e | u, set'⟩
    · rw [getEntry, hload]
      rw [hload] at hloaded
      exact hloaded
    · rw [hload] at hloaded
      cases hfind : set'.entries.find? name with
      | none =>
        rw [getEntry, hload]
        dsimp only
        rw [hfind]
        exact hloaded
      | some entry =>
        rcases getEntry_found ctx schema server hs hload hfind with
          ⟨-, hget⟩ | ⟨-, ⟨e, state', -, hget⟩ | ⟨data, state', hfetches, -, hget⟩⟩
        · rw [hget]
          exact hloaded
        · rw [hget]
          exact hloaded
        · rw [hget]
          exact hloaded.insert (List.mem_append_right _ List.mem_cons_self) hfind hfetches _ _

theorem run_stored (ctx : CatalogContext) (catalog : IRCatalog) (schema : String)
    (calls : List (SetCall (String → Except Error String))) :
    (performAll (listed ctx catalog.config schema) (fillEntry ctx schema)
        (catalog, {}) calls).1.config = catalog.config ∧
      Stored ctx catalog schema (calls.flatMap SetCall.answers)
        (performAll (listed ctx catalog.config schema) (fillEntry ctx schema)
          (catalog, {}) calls).2 := by
  induction calls using List.reverseRecOn with
  | nil => exact ⟨rfl, List.forall_mem_nil _⟩
  | append_singleton calls call ih =>
    rw [performAll_concat, List.flatMap_append, List.flatMap_singleton]
    exact ⟨perform_config ih.1 call, ih.2.perform ih.1 call⟩

/-! ### Entries that are held -/

theorem ne_nil_of_find? {set : IRCCatalogSet ICTableEntry} {name : String}
    {entry : CatalogEntry ICTableEntry} (h : set.entries.find? name = some entry) :
    set.entries.entries ≠ [] := by
  obtain ⟨e, he, -⟩ := NormMap.mem_of_find? h
  exact List.ne_nil_of_mem he

/-- A lookup of an entry that is filled requests nothing and changes nothing. -/
theorem getEntry_held {s : IRCatalog × IRCCatalogSet ICTableEntry} {name : String}
    {entry : CatalogEntry ICTableEntry} (hfind : s.2.entries.find? name = some entry)
    (hfilled : entry.data.tableData.storageLocation ≠ "") {name' : String}
    (hname : ciEquals name' name)
    (load : Except Error (List (Except Error (String × ICTableEntry)))) :
    getEntry load (fillEntry ctx schema server) s.1 s.2 name' = (.ok (some entry), s) ∧
      metadataRequests ctx s.1 schema load s.2 name' = [] := by
  have hload : s.2.loadEntries load = (.ok (), s.2) := loadEntries_of_ne_nil (ne_nil_of_find? hfind) _
  have hfind' : s.2.entries.find? name' = some entry := (NormMap.find?_congr _ hname).trans hfind
  constructor
  · rcases getEntry_found ctx schema server rfl hload hfind' with ⟨-, hget⟩ | ⟨hplaceholder, -⟩
    · exact hget
    · exact absurd hplaceholder hfilled
  · rw [metadataRequests, hload]
    dsimp only
    rw [hfind']
    exact if_pos hfilled

/-- **An entry that is filled** stays in its place until `ClearEntries`. -/
theorem perform_held {s : IRCatalog × IRCCatalogSet ICTableEntry} {name : String}
    {entry : CatalogEntry ICTableEntry} (hfind : s.2.entries.find? name = some entry)
    (hfilled : entry.data.tableData.storageLocation ≠ "")
    {listed : Except Error String → Except Error (List (Except Error (String × ICTableEntry)))}
    {call : SetCall (String → Except Error String)} (hcall : call ≠ .clearEntries) :
    (perform listed (fillEntry ctx schema) s call).2.entries.find? name = some entry := by
  cases call with
  | clearEntries => exact absurd rfl hcall
  | scan response =>
    rw [perform, scan, loadEntries_of_ne_nil (ne_nil_of_find? hfind)]
    exact hfind
  | getEntry name' response server =>
    have hload : s.2.loadEntries (listed response) = (.ok (), s.2) :=
      loadEntries_of_ne_nil (ne_nil_of_find? hfind) _
    by_cases hname : ciEquals name' name
    · rw [perform, (getEntry_held hfind hfilled hname _).1]
      exact hfind
    · cases hfind' : s.2.entries.find? name' with
      | none =>
        rw [perform, getEntry, hload]
        dsimp only
        rw [hfind']
        exact hfind
      | some entry' =>
        rw [perform]
        rcases getEntry_found ctx schema server rfl hload hfind' with
          ⟨-, hget⟩ | ⟨-, ⟨e, state', -, hget⟩ | ⟨data, state', -, -, hget⟩⟩
        · rw [hget]
          exact hfind
        · rw [hget]
          exact hfind
        · rw [hget]
          exact (NormMap.find?_insert ..).trans ((if_neg hname).trans hfind)

theorem performAll_held {s : IRCatalog × IRCCatalogSet ICTableEntry} {name : String}
    {entry : CatalogEntry ICTableEntry} (hfind : s.2.entries.find? name = some entry)
    (hfilled : entry.data.tableData.storageLocation ≠ "")
    {listed : Except Error String → Except Error (List (Except Error (String × ICTableEntry)))}
    {calls : List (SetCall (String → Except Error String))} (hcalls : .clearEntries ∉ calls) :
    (performAll listed (fillEntry ctx schema) s calls).2.entries.find? name = some entry := by
  induction calls using List.reverseRecOn with
  | nil => exact hfind
  | append_singleton calls call ih =>
    rw [performAll_concat]
    refine perform_held (ih fun hmem => hcalls (List.mem_append_left _ hmem)) hfilled ?_
    rintro rfl
    exact hcalls (List.mem_append_right _ List.mem_cons_self)

/-- What a lookup returns is in the set, filled, and of an answer for the name it is stored under. -/
theorem getEntry_filled {s : IRCatalog × IRCCatalogSet ICTableEntry}
    (hs : s.1.config = catalog.config) {servers : List (String → Except Error String)}
    (h : Stored ctx catalog schema servers s.2) (hserver : NonemptyLocations ctx server)
    {name : String} {response : Except Error String} {entry : CatalogEntry ICTableEntry}
    (hget : (getEntry (listed ctx catalog.config schema response) (fillEntry ctx schema server)
      s.1 s.2 name).1 = .ok (some entry)) :
    ciEquals entry.name name ∧ entry.data.tableData.storageLocation ≠ "" ∧
      (∃ server' ∈ servers ++ [server], FromServer ctx catalog schema server' entry.name entry.data) ∧
      (getEntry (listed ctx catalog.config schema response) (fillEntry ctx schema server)
        s.1 s.2 name).2.2.entries.find? name = some entry := by
  have hloaded := h.loadEntries response
  rcases hload : s.2.loadEntries (listed ctx catalog.config schema response) with ⟨e | u, set'⟩
  · rw [getEntry, hload] at hget
    cases hget
  · rw [hload] at hloaded
    cases hfind : set'.entries.find? name with
    | none =>
      rw [getEntry, hload] at hget
      dsimp only at hget
      rw [hfind] at hget
      cases hget
    | some found =>
      obtain ⟨x, hx, hlower, rfl⟩ := NormMap.mem_of_find? hfind
      have hname : ciEquals x.2.name name := by
        rw [(hloaded x hx).1]
        exact hlower
      rcases getEntry_found ctx schema server hs hload hfind with
        ⟨hfilled, hrun⟩ | ⟨-, ⟨e, state', -, hrun⟩ | ⟨data, state', hfetches, -, hrun⟩⟩
      · rw [hrun] at hget ⊢
        cases hget
        obtain ⟨server', hserver', hfetches⟩ := (hloaded x hx).2 hfilled
        refine ⟨hname, hfilled, ⟨server', List.mem_append_left _ hserver', ?_⟩, hfind⟩
        rw [(hloaded x hx).1]
        exact fromServer_of_fetches hfetches
      · rw [hrun] at hget
        cases hget
      · rw [hrun] at hget ⊢
        cases hget
        have hfrom := fromServer_of_fetches hfetches
        refine ⟨hname, hfrom.location_ne hserver,
          ⟨server, List.mem_append_right _ List.mem_cons_self, hfrom⟩, ?_⟩
        exact (NormMap.find?_insert ..).trans (if_pos rfl)

/-- **A table entry is never handed out unfilled**, in any run of lookups, scans and clears: what a
lookup returns is of an answer of a server for the name it is stored under, a lookup that throws as it
fills leaves the set as it was loaded and the next one requests the metadata again, and what was
returned once is returned until the entries are cleared, without a request. -/
theorem entries_filled (ctx : CatalogContext) (catalog : IRCatalog) (schema : String)
    (calls : List (SetCall (String → Except Error String))) (name : String)
    (response : Except Error String) (server : String → Except Error String)
    (hserver : NonemptyLocations ctx server) :
    let s := performAll (listed ctx catalog.config schema) (fillEntry ctx schema) (catalog, {}) calls
    let out := getEntry (listed ctx catalog.config schema response) (fillEntry ctx schema server)
      s.1 s.2 name
    (∀ entry, out.1 = .ok (some entry) →
      ciEquals entry.name name ∧ entry.data.tableData.storageLocation ≠ "" ∧
        (∃ server' ∈ calls.flatMap SetCall.answers ++ [server],
          FromServer ctx catalog schema server' entry.name entry.data) ∧
        ∀ later, .clearEntries ∉ later → ∀ name' response' server', ciEquals name' name →
          let t := performAll (listed ctx catalog.config schema) (fillEntry ctx schema) out.2 later
          getEntry (listed ctx catalog.config schema response') (fillEntry ctx schema server')
              t.1 t.2 name' = (.ok (some entry), t) ∧
            metadataRequests ctx t.1 schema (listed ctx catalog.config schema response') t.2 name' =
              []) ∧
      ∀ loaded entry e,
        s.2.loadEntries (listed ctx catalog.config schema response) = (.ok (), loaded) →
        loaded.entries.find? name = some entry →
        (fillEntry ctx schema server s.1 entry).1 = .error e →
        out.1 = .error e ∧ out.2.2 = loaded ∧
          ∀ response', metadataRequests ctx out.2.1 schema
              (listed ctx catalog.config schema response') out.2.2 name =
            [catalog.config.tableURL ctx.urlEncode schema entry.name] := by
  intro s out
  obtain ⟨hs, hstored⟩ := run_stored ctx catalog schema calls
  constructor
  · intro entry hout
    obtain ⟨hname, hfilled, hfrom, hfind⟩ := getEntry_filled hs hstored hserver hout
    refine ⟨hname, hfilled, hfrom, fun later hlater name' response' server' hname' => ?_⟩
    exact getEntry_held (performAll_held hfind hfilled hlater) hfilled hname' _
  · intro loaded entry e hload hfind hthrows
    have hconfig : out.2.1.config = catalog.config :=
      perform_config hs (.getEntry name response server)
    rcases getEntry_found ctx schema server hs hload hfind with
      ⟨hfilled, -⟩ | ⟨hplaceholder, ⟨e', state', hfill, hrun⟩ | ⟨data, state', -, hfill, -⟩⟩
    · rw [fillEntry, if_pos hfilled] at hthrows
      cases hthrows
    · obtain rfl : e' = e := Except.error.inj (hfill.symm.trans hthrows)
      have hout : out = (.error e', state', loaded) := hrun
      refine ⟨by rw [hout], by rw [hout], fun response' => ?_⟩
      rw [metadataRequests, hconfig, hout]
      dsimp only
      rw [loadEntries_of_ne_nil (ne_nil_of_find? hfind)]
      dsimp only
      rw [hfind]
      exact if_neg (not_not_intro hplaceholder)
    · exact absurd hthrows (hfill e)

/-- The second of two tables that a scan has listed is filled as it is looked up. -/
theorem entries_filled_located :
    let s := performAll (listed locatedContext IRCatalogConfig.polaris "s")
      (fillEntry locatedContext "s") (⟨IRCatalogConfig.polaris, .empty⟩, {}) [.scan (.ok tablesText)]
    let out := getEntry (listed locatedContext IRCatalogConfig.polaris "s" (.ok ""))
      (fillEntry locatedContext "s" fun _ => .ok locatedText) s.1 s.2 "B"
    ∃ entry, out.1 = .ok (some entry) ∧ entry.name = "b" ∧
      entry.data.columns = [("x", .simple .bigint)] ∧
      entry.data.tableData.storageLocation ≠ "" := by
  intro s out
  have hserver : NonemptyLocations locatedContext fun _ => .ok locatedText := by
    rintro url text root location ⟨⟩ hroot hlocation rfl
    have hread : (apiResultToDoc locatedContext locatedText >>= fun root =>
        tryGetStrFromObject root "metadata-location") = .ok "s3://b/m.json" := by decide +kernel
    rw [hroot] at hread
    have heq : (.ok "" : Except Error String) = .ok "s3://b/m.json" := hlocation.symm.trans hread
    exact absurd (Except.ok.inj heq) (by decide)
  have hsome : (out.1.toOption.bind id).map (fun entry => (entry.name, entry.data.columns)) =
      some ("b", [("x", .simple .bigint)]) := by decide +kernel
  rcases hout : out.1 with e | _ | entry
  · rw [hout] at hsome
    cases hsome
  · rw [hout] at hsome
    cases hsome
  · rw [hout] at hsome
    obtain ⟨hname, hcolumns⟩ := Prod.mk.inj (Option.some.inj hsome)
    exact ⟨entry, rfl, hname, hcolumns,
      ((entries_filled locatedContext ⟨IRCatalogConfig.polaris, .empty⟩ "s"
        [.scan (.ok tablesText)] "B" (.ok "") (fun _ => .ok locatedText) hserver).1 entry hout).2.1⟩

end ICTableSet

end DuckIceberg
