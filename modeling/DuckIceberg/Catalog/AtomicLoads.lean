import DuckIceberg.Catalog.SetRuns
import DuckIceberg.Catalog.TableSet

/-!
# Loading is atomic

`LoadEntries` of `ICTableSet` and of `IRCSchemaSet` reads the whole listing before it makes an entry,
and then makes one after the other; `CreateEntry` throws on the empty name, and the entries before it
stay.  So loading is atomic exactly when no name is listed before the empty one (`loads_atomic`).
-/

namespace DuckIceberg

open Strings Json IRCAPI IRCCatalogSet

namespace ICTableSet

/-- The names that the server lists. -/
def names (ctx : CatalogContext) (catalog : IRCatalogConfig) (schema : String)
    (response : Except Error String) : Except Error (List String) :=
  (getTables ctx catalog schema response).map fun tables => tables.map IRCAPITable.name

theorem listed_eq_names (ctx : CatalogContext) (catalog : IRCatalogConfig) (schema : String)
    (response : Except Error String) : listed ctx catalog schema response =
      (names ctx catalog schema response).map (entriesOf (listedEntry catalog schema)) := by
  cases h : getTables ctx catalog schema response with
  | error e =>
    rw [listed, names, h]
    rfl
  | ok tables =>
    rw [listed_eq h, names, h]
    rfl

theorem fillEntry_keepsNames (ctx : CatalogContext) (schema : String) :
    KeepsNames (fillEntry ctx schema) := by
  intro server catalog entry n d h
  rw [fillEntry] at h
  by_cases hfilled : entry.data.tableData.storageLocation ≠ ""
  · rw [if_pos hfilled] at h
    cases h
  · rw [if_neg hfilled] at h
    rcases hrun : fetchEntry ctx catalog schema server entry.name with ⟨e | filled, catalog'⟩
    · rw [hrun] at h
      cases h
    · rw [hrun] at h
      have hname : filled.1 = entry.name := fetchEntry_name (congrArg Prod.fst hrun)
      cases h
      exact hname

end ICTableSet

namespace IRCSchemaSet

/-- The names that the server lists. -/
def names (ctx : CatalogContext) (catalog : IRCatalogConfig) (response : Except Error String) :
    Except Error (List String) :=
  (getSchemas ctx catalog response).map fun schemas => schemas.map IRCAPISchema.schemaName

theorem listed_eq_names (ctx : CatalogContext) (catalog : IRCatalogConfig)
    (response : Except Error String) : listed ctx catalog response =
      (names ctx catalog response).map (entriesOf fun n => ⟨n, catalog.name⟩) := by
  cases h : getSchemas ctx catalog response with
  | error e =>
    rw [listed, names, h]
    rfl
  | ok schemas =>
    rw [listed_eq h, names, h]
    rfl

theorem fillEntry_keepsNames : KeepsNames fillEntry := nofun

end IRCSchemaSet

/-- **Loading is atomic** exactly when the set is not empty or no name is listed before the empty one.
In a run of such calls every lookup and every scan throws and leaves the set as it was, or sees all that
was listed once. -/
theorem loads_atomic (ctx : CatalogContext) (catalog : IRCatalog) (schema : String) :
    (∀ set response, LoadsAtomically set (ICTableSet.listed ctx catalog.config schema response) ↔
      ¬ (set.entries.entries = [] ∧
        ListsEmptyLater (ICTableSet.names ctx catalog.config schema response))) ∧
    (∀ set response, LoadsAtomically set (IRCSchemaSet.listed ctx catalog.config response) ↔
      ¬ (set.entries.entries = [] ∧
        ListsEmptyLater (IRCSchemaSet.names ctx catalog.config response))) ∧
    (∀ calls, AllOrderly (ICTableSet.listed ctx catalog.config schema)
        (ICTableSet.fillEntry ctx schema) (ICTableSet.names ctx catalog.config schema)
        (catalog, {}) calls →
      ∀ before call after, calls = before ++ call :: after →
        SeesWhole (ICTableSet.listed ctx catalog.config schema) (ICTableSet.fillEntry ctx schema)
          (ICTableSet.names ctx catalog.config schema) (sinceClear before)
          (performAll (ICTableSet.listed ctx catalog.config schema)
            (ICTableSet.fillEntry ctx schema) (catalog, {}) before) call) ∧
    ∀ calls, AllOrderly (IRCSchemaSet.listed ctx catalog.config) IRCSchemaSet.fillEntry
        (IRCSchemaSet.names ctx catalog.config) ((), {}) calls →
      ∀ before call after, calls = before ++ call :: after →
        SeesWhole (IRCSchemaSet.listed ctx catalog.config) IRCSchemaSet.fillEntry
          (IRCSchemaSet.names ctx catalog.config) (sinceClear before)
          (performAll (IRCSchemaSet.listed ctx catalog.config) IRCSchemaSet.fillEntry
            ((), {}) before) call := by
  refine ⟨fun set response => ?_, fun set response => ?_, fun calls h before call after hcalls => ?_,
    fun calls h before call after hcalls => ?_⟩
  · rw [ICTableSet.listed_eq_names]
    exact loadEntries_atomic_iff _
  · rw [IRCSchemaSet.listed_eq_names]
    exact loadEntries_atomic_iff _
  · exact run_seesWhole (ICTableSet.listed_eq_names ctx catalog.config schema)
      (ICTableSet.fillEntry_keepsNames ctx schema) catalog h hcalls
  · exact run_seesWhole (IRCSchemaSet.listed_eq_names ctx catalog.config)
      IRCSchemaSet.fillEntry_keepsNames () h hcalls

/-- The answer of a server that lists a table and one with the empty name. -/
def emptyNameText : String :=
  "\x7b\"identifiers\": [\x7b\"name\": \"a\"\x7d, \x7b\"name\": \"\"\x7d]\x7d"

/-- A session that reads this answer. -/
def emptyNameContext : CatalogContext where
  urlEncode := id
  yyjsonRead text :=
    if text = emptyNameText then
      some (.obj [("identifiers", .arr [.obj [("name", .str "a")], .obj [("name", .str "")]])])
    else none
  castUInt8 := readUInt8

/-- What the set of the schema `s` lists of this answer. -/
def emptyNameListed : Except Error (List (Except Error (String × ICTableEntry))) :=
  ICTableSet.listed emptyNameContext IRCatalogConfig.polaris "s" (.ok emptyNameText)

/-- A table listed before the empty name stays in the set when loading throws, and a later scan takes it
for all there is. -/
theorem not_loadsAtomically_emptyName : ¬ LoadsAtomically {} emptyNameListed ∧
    ((scan emptyNameListed (scan emptyNameListed {}).2).1.toOption.map fun entries =>
      entries.map CatalogEntry.name) = some ["a"] := by
  have hthrows : (loadEntries {} emptyNameListed).1 =
      .error ⟨.internal, "ICCatalogSet::CreateEntry called with empty name"⟩ := by decide +kernel
  have hleft : (loadEntries {} emptyNameListed).2.entries.entries.map Prod.fst = ["a"] := by
    decide +kernel
  refine ⟨fun h => ?_, by decide +kernel⟩
  rw [h _ hthrows] at hleft
  exact absurd hleft (by decide +kernel)

namespace ICTableSet

/-- The answer of a server for a table with one column. -/
def locatedText : String :=
  "\x7b\"metadata-location\": \"s3://b/m.json\", \"metadata\": \x7b\"current-schema-id\": 0, \"schemas\":
    [\x7b\"schema-id\": 0, \"fields\": [\x7b\"name\": \"x\", \"type\": \"long\", \"id\": 1\x7d]\x7d]\x7d\x7d"

/-- A session that reads this answer and a listing of two tables. -/
def locatedContext : CatalogContext :=
  { listingContext with
    yyjsonRead := fun text =>
      if text = locatedText then
        some (.obj [("metadata-location", .str "s3://b/m.json"), ("metadata", .obj [
          ("current-schema-id", .int 0), ("schemas", .arr [.obj [("schema-id", .int 0),
            ("fields", .arr [.obj [("name", .str "x"), ("type", .str "long"),
              ("id", .int 1)]])]])])])
      else listingContext.yyjsonRead text }

end ICTableSet

/-- What the set of the schema `s` lists of an answer, its names, and how it fills an entry. -/
def retriedListed : Except Error String → Except Error (List (Except Error (String × ICTableEntry))) :=
  ICTableSet.listed ICTableSet.locatedContext IRCatalogConfig.polaris "s"

def retriedNames : Except Error String → Except Error (List String) :=
  ICTableSet.names ICTableSet.locatedContext IRCatalogConfig.polaris "s"

def retriedFill : (String → Except Error String) → FillEntry IRCatalog ICTableEntry :=
  ICTableSet.fillEntry ICTableSet.locatedContext "s"

/-- A scan for which the server cannot be reached, and a scan and a lookup that each load two tables. -/
def retriedCalls : List (SetCall (String → Except Error String)) :=
  [.scan (.error ⟨.io, "no connection"⟩), .scan (.ok tablesText), .clearEntries,
    .getEntry "B" (.ok tablesText) fun _ => .ok ICTableSet.locatedText]

/-- The state after these calls. -/
def retriedState (calls : List (SetCall (String → Except Error String))) :
    IRCatalog × IRCCatalogSet ICTableEntry :=
  performAll retriedListed retriedFill (⟨IRCatalogConfig.polaris, .empty⟩, {}) calls

theorem retriedCalls_orderly :
    AllOrderly retriedListed retriedFill retriedNames (⟨IRCatalogConfig.polaris, .empty⟩, {})
      retriedCalls := by
  have htables : ¬ ListsEmptyLater (retriedNames (.ok tablesText)) := by
    rintro ⟨ns, hns, hempty, -⟩
    have hnames : retriedNames (.ok tablesText) = .ok ["a", "b"] := by decide +kernel
    rw [hnames] at hns
    cases hns
    exact absurd hempty (by decide)
  rintro before call after heq response hresponse ⟨-, hlists⟩
  have hcall : call ∈ retriedCalls := by
    rw [heq]
    exact List.mem_append_right _ List.mem_cons_self
  simp only [retriedCalls, List.mem_cons, List.not_mem_nil, or_false] at hcall
  rcases hcall with rfl | rfl | rfl | rfl <;> cases hresponse
  · -- the request fails, and nothing is listed
    obtain ⟨ns, hns, -⟩ := hlists
    cases hns
  · exact htables hlists
  · exact htables hlists

/-- The first scan throws, the second sees both tables, and so does the lookup once the entries have been
cleared. -/
theorem loads_atomic_retried :
    (∀ before call after, retriedCalls = before ++ call :: after →
      SeesWhole retriedListed retriedFill retriedNames (sinceClear before) (retriedState before) call) ∧
    (scan (retriedListed (.error ⟨.io, "no connection"⟩)) {}).1.toOption.isNone ∧
    ((scan (retriedListed (.ok tablesText)) (retriedState (retriedCalls.take 1)).2).1.toOption.map
      fun entries => entries.map CatalogEntry.name) = some ["a", "b"] ∧
    ((getEntry (retriedListed (.ok tablesText)) (retriedFill fun _ => .ok ICTableSet.locatedText)
      (retriedState (retriedCalls.take 3)).1 (retriedState (retriedCalls.take 3)).2
        "B").1.toOption.bind id).map CatalogEntry.name = some "b" :=
  ⟨(loads_atomic ICTableSet.locatedContext ⟨IRCatalogConfig.polaris, .empty⟩ "s").2.2.1 retriedCalls
    retriedCalls_orderly, by decide +kernel, by decide +kernel, by decide +kernel⟩

end DuckIceberg
