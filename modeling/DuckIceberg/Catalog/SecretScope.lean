import DuckIceberg.Catalog.Secrets
import DuckIceberg.Lib.Search

/-!
# The scope of a table's secret

`GetScanFunction` cuts the scope of the secret of the table's configuration out of the lower case of
the place of its metadata, at the first occurrence of `metadata`.  The lookup of secrets takes a scope
as a prefix, so the secret is for the files of the table and no others exactly when the scope is the
root of the table.
-/

namespace DuckIceberg

open Strings

namespace ICTableEntry

open IRCAPI

variable {ctx : CatalogContext} {catalog : IRCatalogConfig} {tableData : IRCAPITable}
  {metadata : Except Error String} {catalogSecret : FoundSecret} {config info : CreateSecretInfo}
  {infos : List CreateSecretInfo} {credentials : IRCAPITableCredentials} {root name : String}

/-! ### What a secret is for -/

/-- The path is that of a file below the root. -/
def Below (root path : String) : Prop := ∃ rest, path = root ++ "/" ++ rest

/-- A secret is used for the paths that begin with its scope. -/
def UsedFor (info : CreateSecretInfo) (path : String) : Prop :=
  ∃ scope ∈ info.scope, scope.toList <+: path.toList

/-- The scope is the root of the table: the secret is used for the place of the metadata, and for the
paths below the root only. -/
def ScopedTo (root storageLocation : String) (info : CreateSecretInfo) : Prop :=
  info.scope = [root ++ "/"] ∧ UsedFor info storageLocation ∧
    ∀ path, UsedFor info path ↔ Below root path

theorem prefix_iff_below (root path : String) :
    (root ++ "/").toList <+: path.toList ↔ Below root path := by
  constructor
  · rintro ⟨rest, hrest⟩
    exact ⟨String.ofList rest, by rw [← String.toList_inj, ← hrest]; simp⟩
  · rintro ⟨rest, rfl⟩
    exact ⟨rest.toList, by simp⟩

/-- A secret whose scope is the root is used for the files of the table. -/
theorem scopedTo_of_scope (hscope : info.scope = [root ++ "/"]) (name : String) :
    ScopedTo root (root ++ "/metadata/" ++ name) info := by
  have hused : ∀ path, UsedFor info path ↔ Below root path := by
    intro path
    rw [UsedFor, hscope, ← prefix_iff_below]
    simp
  have hbelow : Below root (root ++ "/metadata/" ++ name) :=
    ⟨"metadata/" ++ name, by simp [← String.toList_inj]⟩
  exact ⟨hscope, (hused _).2 hbelow, hused⟩

/-! ### The scope -/

theorem configSecret_scope (h : configSecret catalog catalogSecret tableData config = .ok info) :
    ∃ pos, find (lower tableData.storageLocation) "metadata" = some pos ∧
      info.scope = [substr (lower tableData.storageLocation) 0 pos] := by
  unfold configSecret at h
  dsimp only at h
  cases hfind : find (lower tableData.storageLocation) "metadata" with
  | none =>
    rw [hfind] at h
    cases h
  | some pos =>
    rw [hfind] at h
    obtain ⟨options, -, h⟩ := bind_eq_ok.1 h
    cases h
    exact ⟨pos, rfl, rfl⟩

/-- The secret of the configuration is the first that is created. -/
theorem secretInfos_of_config
    (hcredentials : getTableCredentials ctx metadata catalogSecret (secretBaseName tableData) =
      .ok credentials) (hconfig : credentials.config = some config)
    (h : secretInfos ctx catalog tableData metadata catalogSecret = .ok infos) :
    ∃ info, infos = info :: credentials.storageCredentials ∧
      configSecret catalog catalogSecret tableData config = .ok info := by
  unfold secretInfos at h
  split_ifs at h
  rw [hcredentials] at h
  dsimp only [bind, Except.bind] at h
  rw [hconfig] at h
  obtain ⟨info, hinfo, h⟩ := bind_eq_ok.1 h
  cases h
  exact ⟨info, rfl, hinfo⟩

theorem lower_storageLocation (root name : String) :
    (lower (root ++ "/metadata/" ++ name)).toList =
      (lower root).toList ++ '/' :: ("metadata".toList ++ '/' :: (lower name).toList) := by
  have hmiddle : "/metadata/".toList.map Char.toLower = '/' :: ("metadata".toList ++ ['/']) := by
    decide
  simp only [lower, String.toList_ofList, String.toList_append, List.map_append, hmiddle]
  simp

/-- The scope that is cut out is the root exactly when the root is in lower case and `metadata` does
not occur in it. -/
theorem cut_eq_root_iff {pos : ℕ}
    (hpos : find (lower (root ++ "/metadata/" ++ name)) "metadata" = some pos) :
    substr (lower (root ++ "/metadata/" ++ name)) 0 pos = root ++ "/" ↔
      lower root = root ∧ ¬ "metadata".toList <:+: root.toList := by
  rw [find, lower_storageLocation] at hpos
  have hfind : findList "metadata".toList ((lower root).toList ++
      '/' :: ("metadata".toList ++ '/' :: (lower name).toList)) =
        some ((lower root).toList.length + 1) ↔ ¬ "metadata".toList <:+: (lower root).toList :=
    findList_delimiter_iff (by decide) (by decide) _
  rw [hpos, Option.some.injEq] at hfind
  rw [substr, List.drop_zero, lower_storageLocation, ← String.toList_inj, String.toList_ofList]
  have hlen : (lower root).toList.length = root.toList.length := by simp [lower]
  constructor
  · intro h
    -- the lengths say where it was cut, and then what was cut out
    have hle := congrArg List.length h
    simp only [List.length_take, List.length_append, List.length_cons, String.toList_append] at hle
    have hslash : "/".toList.length = 1 := rfl
    have hmetadata : "metadata".toList.length = 8 := rfl
    have hat : pos = (lower root).toList.length + 1 := by omega
    have hnot := hfind.1 hat
    have hlower : lower root = root := by
      rw [hat, List.take_length_add_append, String.toList_append] at h
      exact String.toList_inj.1 (List.append_inj_left h hlen)
    rw [hlower] at hnot
    exact ⟨hlower, hnot⟩
  · rintro ⟨hlower, hnot⟩
    rw [hlower] at hfind ⊢
    rw [hfind.2 hnot, List.take_length_add_append, String.toList_append]
    rfl

/-- **The secret of a table is for that table**: of all roots, exactly those in lower case in which
`metadata` does not occur are the scope of the secret that is created for the configuration. -/
theorem configSecret_scopedTo_iff (hlocation : tableData.storageLocation = root ++ "/metadata/" ++ name)
    (hcredentials : getTableCredentials ctx metadata catalogSecret (secretBaseName tableData) =
      .ok credentials) (hconfig : credentials.config = some config)
    (h : secretInfos ctx catalog tableData metadata catalogSecret = .ok infos) :
    ∃ info, infos = info :: credentials.storageCredentials ∧
      (ScopedTo root tableData.storageLocation info ↔
        lower root = root ∧ ¬ "metadata".toList <:+: root.toList) := by
  obtain ⟨info, rfl, hinfo⟩ := secretInfos_of_config hcredentials hconfig h
  obtain ⟨pos, hpos, hscope⟩ := configSecret_scope hinfo
  rw [hlocation] at hpos hscope ⊢
  refine ⟨info, rfl, ?_⟩
  rw [← cut_eq_root_iff hpos]
  constructor
  · rintro ⟨hroot, -⟩
    rw [hscope] at hroot
    exact (List.cons.inj hroot).1
  · intro hroot
    rw [hroot] at hscope
    exact scopedTo_of_scope hscope name

/-! ### Tables in buckets -/

/-- A session that reads the answer for a table in this bucket. -/
def bucketContext (bucket : String) : CatalogContext :=
  { bucketsContext with
    yyjsonRead := fun text =>
      if text = loadTableText bucket then some (loadTableJson bucket) else none }

/-- The bind of the table. -/
def lakeBind (bucket : String) : Bind := bucketBind IRCatalogConfig.polaris bucket "t"

theorem exists_infos (ctx : CatalogContext) (b : Bind) (scopes : List (List String))
    (h : (b.infos ctx).toOption.map (List.map CreateSecretInfo.scope) = some scopes) :
    ∃ infos, b.infos ctx = .ok infos ∧ infos.map CreateSecretInfo.scope = scopes := by
  cases hinfos : b.infos ctx with
  | error e =>
    rw [hinfos] at h
    cases h
  | ok infos =>
    rw [hinfos] at h
    exact ⟨infos, rfl, Option.some.inj h⟩

theorem exists_config (ctx : CatalogContext) (b : Bind)
    (h : ((getTableCredentials ctx b.metadata b.catalogSecret
      (secretBaseName b.tableData)).toOption.bind (·.config)).isSome = true) :
    ∃ credentials config, getTableCredentials ctx b.metadata b.catalogSecret
      (secretBaseName b.tableData) = .ok credentials ∧ credentials.config = some config := by
  obtain ⟨config, hconfig⟩ := Option.isSome_iff_exists.1 h
  obtain ⟨credentials, hcredentials, hconfig⟩ := Option.bind_eq_some_iff.1 hconfig
  cases hgot : getTableCredentials ctx b.metadata b.catalogSecret (secretBaseName b.tableData) with
  | error e =>
    rw [hgot] at hcredentials
    cases hcredentials
  | ok credentials' =>
    rw [hgot] at hcredentials
    obtain rfl := Option.some.inj hcredentials
    exact ⟨_, config, rfl, hconfig⟩

/-- The secret of a table in the bucket `a` is for that table. -/
theorem configSecret_scopedTo_lower :
    ∃ info ∈ ((lakeBind "a").infos (bucketContext "a")).toOption.getD [],
      ScopedTo "s3://a" "s3://a/metadata/1.json" info := by
  obtain ⟨infos, hinfos, -⟩ := exists_infos (bucketContext "a") (lakeBind "a") [["s3://a/"]]
    (by decide +kernel)
  obtain ⟨credentials, config, hcredentials, hconfig⟩ := exists_config (bucketContext "a")
    (lakeBind "a") (by decide +kernel)
  have hlocation : (lakeBind "a").tableData.storageLocation = "s3://a" ++ "/metadata/" ++ "1.json" :=
    by decide
  obtain ⟨info, hall, hscoped⟩ := configSecret_scopedTo_iff hlocation hcredentials hconfig hinfos
  have hcond : lower "s3://a" = "s3://a" ∧ ¬ "metadata".toList <:+: "s3://a".toList := by
    decide +kernel
  rw [hinfos, hall]
  exact ⟨info, List.mem_cons_self, by simpa [hlocation] using hscoped.2 hcond⟩

/-- The secret of a table in a bucket with a capital letter is not for its files, and that of a table
in a bucket with `metadata` in its name is for those of other buckets. -/
theorem not_scopedTo_buckets :
    (∃ info ∈ ((lakeBind "Lake").infos (bucketContext "Lake")).toOption.getD [],
      ¬ UsedFor info "s3://Lake/metadata/1.json" ∧
        ¬ ScopedTo "s3://Lake" "s3://Lake/metadata/1.json" info) ∧
    ∃ info ∈ ((lakeBind "metadata-a").infos (bucketContext "metadata-a")).toOption.getD [],
      UsedFor info "s3://b/metadata/1.json" ∧
        ¬ ScopedTo "s3://metadata-a" "s3://metadata-a/metadata/1.json" info := by
  constructor
  · obtain ⟨infos, hinfos, hscopes⟩ := exists_infos (bucketContext "Lake") (lakeBind "Lake")
      [["s3://lake/"]] (by decide +kernel)
    obtain ⟨info, rfl, hscope⟩ := List.map_eq_singleton_iff.1 hscopes
    have hnot : ¬ UsedFor info "s3://Lake/metadata/1.json" := by
      rw [UsedFor, hscope]
      decide +kernel
    rw [hinfos]
    exact ⟨info, List.mem_cons_self, hnot, fun h => hnot h.2.1⟩
  · obtain ⟨infos, hinfos, hscopes⟩ := exists_infos (bucketContext "metadata-a")
      (lakeBind "metadata-a") [["s3://"]] (by decide +kernel)
    obtain ⟨info, rfl, hscope⟩ := List.map_eq_singleton_iff.1 hscopes
    have hused : UsedFor info "s3://b/metadata/1.json" := by
      rw [UsedFor, hscope]
      decide +kernel
    rw [hinfos]
    refine ⟨info, List.mem_cons_self, hused, fun h => ?_⟩
    have hroot := h.1
    rw [hscope] at hroot
    exact absurd hroot (by decide)

end ICTableEntry

end DuckIceberg
