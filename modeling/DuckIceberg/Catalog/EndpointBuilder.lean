import DuckIceberg.Lib.Strings
import DuckIceberg.Types

/-!
# Request URLs

`IRCEndpointBuilder` puts a URL together from a host, a version and path components.  The URL of
the metadata of a table is the target of the request and the key of its response in the cache.

* `tableURL_eq_iff`: two tables have the same URL exactly when their names overlap;
* `splitPath_iff`: the components come back from the path exactly when none has a slash.
-/

namespace DuckIceberg

open Strings

/-- `IRCEndpointBuilder`.  The parameters are in the order of the map they are kept in. -/
structure IRCEndpointBuilder where
  pathComponents : List String := []
  host : String := ""
  version : String := ""
  pathPrefix : String := ""
  params : List (String × String) := []

namespace IRCEndpointBuilder

/-- `AddPathComponent` -/
def addPathComponent (b : IRCEndpointBuilder) (component : String) : IRCEndpointBuilder :=
  if component = "" then b else { b with pathComponents := b.pathComponents ++ [component] }

/-- The path of these components. -/
def path (components : List String) : String :=
  components.foldl (fun ret component => ret ++ "/" ++ component) ""

/-- The parameters of the query, each after a separator. -/
def query (urlEncode : String → String) : String → List (String × String) → String
  | _, [] => ""
  | sep, (key, value) :: params =>
    sep ++ urlEncode key ++ "=" ++ urlEncode value ++ query urlEncode "&" params

/-- `GetURL`, with `StringUtil::URLEncode` passed along -/
def getURL (urlEncode : String → String) (b : IRCEndpointBuilder) : String :=
  b.host ++ (if b.version = "" then "" else "/" ++ b.version) ++
    (if b.pathPrefix = "" then "" else "/" ++ b.pathPrefix) ++ path b.pathComponents ++
    query urlEncode "?" b.params

end IRCEndpointBuilder

/-- `ICEBERG_CATALOG_TYPE` -/
inductive IcebergCatalogType
  | awsS3Tables
  | awsGlue
  | other
  | invalid
  deriving DecidableEq, Repr

/-- The fields of `IRCatalog` that its requests are made with. -/
structure IRCatalogConfig where
  /-- `GetName()` -/
  name : String
  warehouse : String
  host : String
  secretName : String
  version : String
  catalogPrefix : String
  catalogType : IcebergCatalogType

namespace IRCatalogConfig

/-- `IRCatalog::GetBaseUrl` -/
def getBaseUrl (catalog : IRCatalogConfig) : IRCEndpointBuilder :=
  let baseUrl : IRCEndpointBuilder := { version := catalog.version, host := catalog.host }
  match catalog.catalogType with
  | .awsGlue | .awsS3Tables =>
    (baseUrl.addPathComponent "iceberg").addPathComponent catalog.version
  | _ => baseUrl

/-- The endpoint of the metadata of a table, as `GetTableMetadata` and `GetTableMetadataCached` build
it -/
def tableEndpoint (catalog : IRCatalogConfig) (schema table : String) : IRCEndpointBuilder :=
  ((((catalog.getBaseUrl.addPathComponent catalog.catalogPrefix).addPathComponent
    "namespaces").addPathComponent schema).addPathComponent "tables").addPathComponent table

/-- Its URL. -/
def tableURL (urlEncode : String → String) (catalog : IRCatalogConfig) (schema table : String) :
    String :=
  (catalog.tableEndpoint schema table).getURL urlEncode

end IRCatalogConfig

namespace IRCEndpointBuilder

/-! ### Paths -/

/-- The characters of a path. -/
theorem toList_path (components : List String) :
    (path components).toList = components.flatMap fun c => '/' :: c.toList := by
  have hfold : ∀ s : String,
      (components.foldl (fun ret component => ret ++ "/" ++ component) s).toList =
        s.toList ++ components.flatMap fun c => '/' :: c.toList := by
    induction components with
    | nil => intro s; simp
    | cons c cs ih =>
      intro s
      rw [List.foldl_cons, ih]
      simp
  rw [path, hfold]
  rfl

theorem splitList_components {components : List String} (h : ∀ c ∈ components, '/' ∉ c.toList)
    {first : List Char} (hfirst : '/' ∉ first) :
    splitList '/' (first ++ components.flatMap fun c => '/' :: c.toList) =
      first :: components.map String.toList := by
  induction components generalizing first with
  | nil => rw [List.flatMap_nil, List.append_nil, splitList_of_notMem hfirst, List.map_nil]
  | cons c cs ih =>
    rw [List.flatMap_cons, List.cons_append, splitList_append hfirst,
      ih (fun x hx => h x (List.mem_cons_of_mem _ hx)) (h c List.mem_cons_self), List.map_cons]

/-- **A path** splits into its components exactly when none of them has a slash: otherwise there are
more pieces than components. -/
theorem splitPath_iff (components : List String) :
    splitList '/' (path components).toList = [] :: components.map String.toList ↔
      ∀ c ∈ components, '/' ∉ c.toList := by
  rw [toList_path]
  constructor
  · intro h
    have hlen := congrArg List.length h
    rw [length_splitList, List.length_cons, List.length_map, Nat.add_right_cancel_iff] at hlen
    clear h
    have hcount : ∀ cs : List String, cs.length ≤ (cs.flatMap fun c => '/' :: c.toList).count '/' := by
      intro cs
      induction cs with
      | nil => exact Nat.zero_le _
      | cons c cs ih =>
        rw [List.flatMap_cons, List.count_append, List.count_cons_self, List.length_cons]
        omega
    induction components with
    | nil => nofun
    | cons c cs ih =>
      have hcs := hcount cs
      rw [List.flatMap_cons, List.count_append, List.count_cons_self, List.length_cons] at hlen
      intro x hx
      rcases List.mem_cons.1 hx with rfl | hx
      · exact List.count_eq_zero.1 (by omega)
      · exact ih (by omega) x hx
  · intro h
    have hfirst : '/' ∉ ([] : List Char) := nofun
    exact splitList_components h hfirst

/-! ### URLs of tables -/

/-- The names of a table begin the names of another: `schema'` is `schema` and more, which `table`
goes on with. -/
def Overlap (schema table schema' table' : String) : Prop :=
  ∃ m, schema' = schema ++ "/tables" ++ m ∧ "/" ++ table = m ++ "/tables/" ++ table'

/-- A text that begins with `/tables/`, and that another text with `/tables/` in it begins, is as long
as `/tables`. -/
theorem tables_prefix {d rest : List Char} (hd : d ≠ [])
    (h : ∃ u, d ++ "/tables/".toList ++ u = "/tables/".toList ++ rest) :
    ∃ m, d = "/tables".toList ++ m := by
  obtain ⟨u, h⟩ := h
  match d, hd, h with
  | [_], _, h => simp at h
  | [_, _], _, h => simp at h
  | [_, _, _], _, h => simp at h
  | [_, _, _, _], _, h => simp at h
  | [_, _, _, _, _], _, h => simp at h
  | [_, _, _, _, _, _], _, h => simp at h
  | a :: b :: c :: e :: f :: g :: i :: m, _, h =>
    simp at h
    obtain ⟨rfl, rfl, rfl, rfl, rfl, rfl, rfl, -⟩ := h
    exact ⟨m, rfl⟩

/-- The part of a URL that names the table. -/
def names (schema table : String) : String := schema ++ "/tables/" ++ table

theorem overlap_of_names {schema table schema' table' : String}
    (h : names schema table = names schema' table')
    (hle : schema.toList.length ≤ schema'.toList.length) :
    (schema, table) = (schema', table') ∨ Overlap schema table schema' table' := by
  have hlist := congrArg String.toList h
  simp only [names, String.toList_append, List.append_assoc] at hlist
  obtain ⟨d, hd, htail⟩ : ∃ d, schema'.toList = schema.toList ++ d ∧
      "/tables/".toList ++ table.toList = d ++ ("/tables/".toList ++ table'.toList) := by
    rcases List.append_eq_append_iff.1 hlist with ⟨d, hd, htail⟩ | ⟨d, hd, htail⟩
    · exact ⟨d, hd, htail⟩
    · have hnil : d = [] := by
        rw [hd, List.length_append] at hle
        exact List.length_eq_zero_iff.1 (by omega)
      subst hnil
      exact ⟨[], by rw [hd, List.append_nil, List.append_nil], htail.symm⟩
  by_cases hnil : d = []
  · subst hnil
    rw [List.append_nil] at hd
    rw [List.nil_append, List.append_cancel_left_eq] at htail
    exact Or.inl (by rw [String.toList_inj.1 hd, String.toList_inj.1 htail])
  · obtain ⟨m, rfl⟩ := tables_prefix hnil ⟨table'.toList, by rw [htail, List.append_assoc]⟩
    refine Or.inr ⟨String.ofList m, ?_, ?_⟩
    · rw [← String.toList_inj, hd]
      simp
    · rw [← String.toList_inj]
      simpa using htail

theorem names_of_overlap {schema table schema' table' : String}
    (h : Overlap schema table schema' table') : names schema table = names schema' table' := by
  obtain ⟨m, rfl, h⟩ := h
  have hsplit : ("/tables/" : String) = "/tables" ++ "/" := rfl
  calc names schema table = schema ++ "/tables" ++ ("/" ++ table) := by
        rw [names, hsplit]
        simp only [String.append_assoc]
    _ = names (schema ++ "/tables" ++ m) table' := by
        rw [h, names]
        simp only [String.append_assoc]

/-- The texts that name two tables are the same for the same table, and where the names overlap. -/
theorem names_eq_iff (schema table schema' table' : String) :
    names schema table = names schema' table' ↔
      (schema, table) = (schema', table') ∨ Overlap schema table schema' table' ∨
        Overlap schema' table' schema table := by
  constructor
  · intro h
    rcases Nat.le_total schema.toList.length schema'.toList.length with hle | hle
    · exact (overlap_of_names h hle).imp_right Or.inl
    · rcases overlap_of_names h.symm hle with heq | hover
      · exact Or.inl heq.symm
      · exact Or.inr (Or.inr hover)
  · rintro (heq | hover | hover)
    · cases heq
      rfl
    · exact names_of_overlap hover
    · exact (names_of_overlap hover).symm

end IRCEndpointBuilder

namespace IRCatalogConfig

open IRCEndpointBuilder

variable (urlEncode : String → String) (catalog : IRCatalogConfig)

/-- The endpoint that the names of tables are added to. -/
def tablesEndpoint : IRCEndpointBuilder :=
  (catalog.getBaseUrl.addPathComponent catalog.catalogPrefix).addPathComponent "namespaces"

/-- The endpoint of a table has the components of the catalog, and those of the table. -/
theorem tableEndpoint_eq {schema table : String} (hs : schema ≠ "") (ht : table ≠ "") :
    catalog.tableEndpoint schema table =
      { catalog.tablesEndpoint with
        pathComponents := catalog.tablesEndpoint.pathComponents ++ [schema, "tables", table] } := by
  have hadd : ∀ (b : IRCEndpointBuilder) {c : String}, c ≠ "" →
      b.addPathComponent c = { b with pathComponents := b.pathComponents ++ [c] } :=
    fun b c hc => if_neg hc
  show ((catalog.tablesEndpoint.addPathComponent schema).addPathComponent "tables").addPathComponent
    table = _
  have htables : ("tables" : String) ≠ "" := by decide
  simp only [hadd _ hs, hadd _ htables, hadd _ ht, List.append_assoc, List.cons_append,
    List.nil_append]

/-- The URL of a table is the text that names it, between texts that do not depend on the table. -/
theorem tableURL_eq : ∃ before after, ∀ schema table, schema ≠ "" → table ≠ "" →
    catalog.tableURL urlEncode schema table = before ++ names schema table ++ after := by
  set b := catalog.tablesEndpoint with hb
  refine ⟨b.host ++ (if b.version = "" then "" else "/" ++ b.version) ++
    (if b.pathPrefix = "" then "" else "/" ++ b.pathPrefix) ++ path b.pathComponents ++ "/",
    query urlEncode "?" b.params, fun schema table hs ht => ?_⟩
  have hpath : path (b.pathComponents ++ [schema, "tables", table]) =
      path b.pathComponents ++ "/" ++ names schema table := by
    rw [← String.toList_inj]
    simp [toList_path, names]
  rw [tableURL, tableEndpoint_eq catalog hs ht, getURL, ← hb]
  simp only [hpath, String.append_assoc]

theorem tableURL_eq_iff {schema table schema' table' : String} (hs : schema ≠ "") (ht : table ≠ "")
    (hs' : schema' ≠ "") (ht' : table' ≠ "") :
    catalog.tableURL urlEncode schema table = catalog.tableURL urlEncode schema' table' ↔
      (schema, table) = (schema', table') ∨ Overlap schema table schema' table' ∨
        Overlap schema' table' schema table := by
  obtain ⟨before, after, heq⟩ := tableURL_eq urlEncode catalog
  rw [heq _ _ hs ht, heq _ _ hs' ht', String.append_left_inj, String.append_right_inj,
    names_eq_iff]

/-- **The request URL** identifies a table among others exactly when their names do not overlap, and
its path splits into the components exactly when none of them has a slash. -/
theorem tableURL_identifies_iff {schema table schema' table' : String} (hs : schema ≠ "")
    (ht : table ≠ "") (hs' : schema' ≠ "") (ht' : table' ≠ "")
    (hne : (schema, table) ≠ (schema', table')) :
    (catalog.tableURL urlEncode schema table ≠ catalog.tableURL urlEncode schema' table' ↔
      ¬ Overlap schema table schema' table' ∧ ¬ Overlap schema' table' schema table) ∧
    (splitList '/' (path (catalog.tableEndpoint schema table).pathComponents).toList =
        [] :: (catalog.tableEndpoint schema table).pathComponents.map String.toList ↔
      ∀ c ∈ (catalog.tableEndpoint schema table).pathComponents, '/' ∉ c.toList) := by
  refine ⟨?_, splitPath_iff _⟩
  rw [Ne, tableURL_eq_iff urlEncode catalog hs ht hs' ht']
  constructor
  · intro h
    exact ⟨fun h' => h (Or.inr (Or.inl h')), fun h' => h (Or.inr (Or.inr h'))⟩
  · rintro ⟨h1, h2⟩ (heq | hover | hover)
    · exact hne heq
    · exact h1 hover
    · exact h2 hover

/-- A catalog. -/
def polaris : IRCatalogConfig :=
  ⟨"ice", "demo", "localhost:8181", "", "v1", "demo", .other⟩

/-- The tables `t` and `u` of a schema. -/
theorem tableURL_identifies_two :
    polaris.tableURL id "s" "t" ≠ polaris.tableURL id "s" "u" := by
  refine ((tableURL_identifies_iff id polaris (by decide) (by decide) (by decide) (by decide)
    (by decide)).1).2 ⟨?_, ?_⟩
  all_goals
    rintro ⟨m, h, -⟩
    have hlen := congrArg (fun s => s.toList.length) h
    simp at hlen

/-- A schema and a table with a slash in their names. -/
theorem not_tableURL_identifies_slash :
    (("a", "b/tables/c") : String × String) ≠ ("a/tables/b", "c") ∧
      polaris.tableURL id "a" "b/tables/c" = polaris.tableURL id "a/tables/b" "c" := by
  decide

end IRCatalogConfig

end DuckIceberg
