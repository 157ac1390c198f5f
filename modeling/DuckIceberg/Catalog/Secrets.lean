import DuckIceberg.Catalog.SecretNames

/-!
# Secrets of several tables

A run of binds, of any tables of any catalogs, creates the secrets of each table in turn.  A secret
replaces the one of its name.

* `infos_names`: the secrets of a bind are named after its table;
* `secrets_kept`: where no secret of another table has the name of one of these, each table keeps the
  secrets of its last bind.
-/

namespace DuckIceberg

open Strings Json IcebergUtils IRCAPI ICTableEntry

/-! ### Binds -/

/-- A call of `GetScanFunction`: the table, and what its metadata and the secret of its catalog are at
the time. -/
structure Bind where
  catalog : IRCatalogConfig
  schema : String
  table : String
  storageLocation : String
  columns : List IRCAPIColumnDefinition := []
  metadata : Except Error String
  catalogSecret : FoundSecret

namespace Bind

/-- `table_data` -/
def tableData (b : Bind) : IRCAPITable :=
  { createTable b.catalog b.schema b.table with
    storageLocation := b.storageLocation, columns := b.columns }

/-- The table that is bound. -/
def id (b : Bind) : String × String × String := (b.catalog.name, b.schema, b.table)

/-- The scope of a storage credential. -/
def credentialScope (credential : Json) : String :=
  match objGet (some credential) "prefix" with
  | some (.str s) => cString s
  | _ => ""

/-- What can be added to the name of the table for a secret of it: nothing if the metadata has no
storage credentials, otherwise their indices and scopes. -/
def added (ctx : CatalogContext) (b : Bind) : List String :=
  match b.metadata >>= apiResultToDoc ctx with
  | .error _ => []
  | .ok root =>
    match elems (objGet root "storage-credentials") with
    | [] => [""]
    | credentials => credentials.zipIdx.map fun e => indexSuffix e.2 (credentialScope e.1)

/-- The secrets that the bind sets out to create. -/
def infos (ctx : CatalogContext) (b : Bind) : Except Error (List CreateSecretInfo) :=
  secretInfos ctx b.catalog b.tableData b.metadata b.catalogSecret

/-- The secrets that it creates, before one is not accepted. -/
def created (ctx : CatalogContext) (accepts : CreateSecretInfo → Except Error Unit) (b : Bind) :
    List CreateSecretInfo :=
  match b.infos ctx with
  | .error _ => []
  | .ok infos => infos.takeWhile fun info => accepts info = .ok ()

/-- Execute a bind. -/
def exec (ctx : CatalogContext) (accepts : CreateSecretInfo → Except Error Unit)
    (secrets : Secrets) (b : Bind) : Secrets :=
  (getScanFunction ctx accepts b.catalog b.tableData b.metadata b.catalogSecret secrets).2

/-- Execute binds. -/
def execAll (ctx : CatalogContext) (accepts : CreateSecretInfo → Except Error Unit)
    (secrets : Secrets) (binds : List Bind) : Secrets :=
  binds.foldl (exec ctx accepts) secrets

/-- Each table has the secrets of its last bind. -/
def Kept (ctx : CatalogContext) (accepts : CreateSecretInfo → Except Error Unit)
    (secrets : Secrets) (binds : List Bind) : Prop :=
  ∀ pre b post, binds = pre ++ b :: post → (∀ b' ∈ post, b'.id ≠ b.id) →
    ∀ info ∈ b.created ctx accepts, (execAll ctx accepts secrets binds).find? info.name = some info

/-- No secret of one bind is named like one of the other. -/
def Apart (ctx : CatalogContext) (b b' : Bind) : Prop :=
  ∀ x ∈ b.added ctx, ∀ x' ∈ b'.added ctx,
    ¬ (ciEquals b.schema b'.schema ∧ ciEquals (b.table ++ x) (b'.table ++ x'))

instance (ctx : CatalogContext) (b b' : Bind) : Decidable (Apart ctx b b') :=
  inferInstanceAs (Decidable (∀ x ∈ b.added ctx, ∀ x' ∈ b'.added ctx,
    ¬ (ciEquals b.schema b'.schema ∧ ciEquals (b.table ++ x) (b'.table ++ x'))))

end Bind

/-! ### The secrets of one bind -/

section Binds

variable {ctx : CatalogContext} {accepts : CreateSecretInfo → Except Error Unit}

/-- The index of a storage credential can be read from the name of its secret. -/
theorem eq_of_ciEquals_indexSuffix {table scope scope' : String} {i j : ℕ}
    (h : ciEquals (table ++ indexSuffix i scope) (table ++ indexSuffix j scope')) : i = j := by
  have hlower : ∀ n : ℕ, (toString n).toList.map Char.toLower = Nat.toDigits 10 n := by
    intro n
    rw [Nat.toString_eq_ofList_toDigits, String.toList_ofList]
    refine (List.map_congr_left fun c hc => ?_).trans (List.map_id _)
    have hdigit := isDigit_toDigits hc
    exact dif_neg fun hupper => by
      have hle : c.toNat ≤ 57 := (Char.isDigit_iff_toNat.1 hdigit).2
      have hge : 65 ≤ c.toNat := UInt32.le_iff_toNat_le.1 hupper.1
      omega
  have hfree : ∀ n : ℕ, '_' ∉ Nat.toDigits 10 n := notMem_toDigits (by decide)
  have hsplit : ∀ (n : ℕ) (scope : String), (table ++ indexSuffix n scope).toList.map Char.toLower =
      table.toList.map Char.toLower ++
        '_' :: (Nat.toDigits 10 n ++ '_' :: scope.toList.map Char.toLower) := by
    intro n scope
    have hunderscore : "_".toList = ['_'] := rfl
    have hsame : Char.toLower '_' = '_' := by decide
    simp only [indexSuffix, String.toList_append, List.map_append, hlower, hunderscore,
      List.map_cons, hsame, List.append_assoc, List.cons_append, List.nil_append]
  rw [ciEquals, lower, lower, String.ofList_inj, hsplit, hsplit, List.append_cancel_left_eq] at h
  obtain ⟨hdigits, -⟩ := append_delimiter_inj (hfree i) (hfree j) (List.cons.inj h).2
  rw [← digitsValue_toDigits i, hdigits, digitsValue_toDigits]

theorem mapM_storageCredential {secretBaseName : String} {options : CIMap Value}
    {entries : List (Json × ℕ)} {infos : List CreateSecretInfo}
    (h : entries.mapM (storageCredential secretBaseName options) = .ok infos) :
    infos.map CreateSecretInfo.name = entries.map fun e =>
      secretBaseName ++ indexSuffix e.2 (Bind.credentialScope e.1) := by
  induction mapM_eq_ok.1 h with
  | nil => rfl
  | @cons e info entries infos he hall ih =>
    rw [List.map_cons, List.map_cons, ih (mapM_eq_ok.2 hall)]
    refine congrArg (· :: _) ?_
    rw [storageCredential] at he
    rw [Bind.credentialScope]
    split at he
    · cases he
    · rename_i s hs
      obtain ⟨options, -, he⟩ := bind_eq_ok.1 he
      cases he
      rw [hs]
    · cases he

theorem pairwise_zipIdx_ne {α : Type} (l : List α) :
    l.zipIdx.Pairwise fun e e' => e.2 ≠ e'.2 := by
  have hnodup : (l.zipIdx.map Prod.snd).Nodup := by
    rw [List.zipIdx_map_snd]
    exact List.nodup_range'
  exact List.pairwise_map.1 hnodup

/-- **The names of the secrets of a bind.** -/
theorem infos_names {b : Bind} {infos : List CreateSecretInfo} (h : b.infos ctx = .ok infos) :
    (infos.map CreateSecretInfo.name).Sublist
      ((b.added ctx).map (secretName b.schema b.table)) := by
  have hbase : ∀ x, secretBaseName b.tableData ++ x = secretName b.schema b.table x :=
    secretBaseName_append b.catalog b.schema b.table
  rw [Bind.infos, secretInfos, if_neg (fun hformat => hformat rfl)] at h
  obtain ⟨credentials, hcredentials, h⟩ := bind_eq_ok.1 h
  rw [getTableCredentials] at hcredentials
  obtain ⟨apiResult, hmetadata, hcredentials⟩ := bind_eq_ok.1 hcredentials
  obtain ⟨root, hroot, hcredentials⟩ := bind_eq_ok.1 hcredentials
  obtain ⟨secret, -, hcredentials⟩ := bind_eq_ok.1 hcredentials
  obtain ⟨options, -, hcredentials⟩ := bind_eq_ok.1 hcredentials
  obtain ⟨storageCredentials, hstorage, hcredentials⟩ := bind_eq_ok.1 hcredentials
  cases hcredentials
  have hadded : b.added ctx = match elems (objGet root "storage-credentials") with
      | [] => [""]
      | credentials => credentials.zipIdx.map fun e => indexSuffix e.2 (Bind.credentialScope e.1) := by
    have hread : b.metadata >>= apiResultToDoc ctx = .ok root :=
      bind_eq_ok.2 ⟨apiResult, hmetadata, hroot⟩
    rw [Bind.added, hread]
  have hnames := mapM_storageCredential hstorage
  rw [hadded]
  cases hentries : elems (objGet root "storage-credentials") with
  | nil =>
    -- the only secret there can be is that of the configuration
    have hnil : storageCredentials = [] := by
      rw [hentries] at hnames
      exact List.map_eq_nil_iff.1 hnames
    by_cases hoptions : options.entries = []
    · rw [if_neg (fun hcond => hcond.2 hoptions)] at h
      cases h
      rw [hnil]
      exact List.nil_sublist _
    · rw [if_pos ⟨hnil, hoptions⟩] at h
      obtain ⟨info, hinfo, h⟩ := bind_eq_ok.1 h
      cases h
      have hname : info.name = secretBaseName b.tableData := by
        rw [configSecret] at hinfo
        split at hinfo
        · cases hinfo
        · obtain ⟨options', -, hinfo⟩ := bind_eq_ok.1 hinfo
          cases hinfo
          rfl
      rw [hnil, List.map_singleton, List.map_singleton, hname, ← hbase, String.append_empty]
  | cons entry entries =>
    have hne : storageCredentials ≠ [] := by
      intro hnil
      rw [hnil, hentries, List.zipIdx_cons] at hnames
      cases hnames
    rw [if_neg (fun hcond => hne hcond.1)] at h
    cases h
    rw [hnames, hentries, List.map_map]
    simp only [hbase]
    exact List.Sublist.refl _

/-- No two names of a bind are equal up to case. -/
theorem pairwise_names (b : Bind) :
    ((b.added ctx).map (secretName b.schema b.table)).Pairwise fun n n' => ¬ ciEquals n n' := by
  rw [List.pairwise_map]
  unfold Bind.added
  split
  · exact List.Pairwise.nil
  · split
    · exact List.pairwise_singleton _ _
    · rw [List.pairwise_map]
      refine (pairwise_zipIdx_ne _).imp fun hne heq => hne ?_
      exact eq_of_ciEquals_indexSuffix ((ciEquals_secretName_iff _ _ _ _ _ _).1 heq).2

/-! ### Runs -/

theorem createSecrets_snd (infos : List CreateSecretInfo) (secrets : Secrets) :
    (createSecrets accepts infos secrets).2 = secrets.insertAll
      ((infos.takeWhile fun info => accepts info = .ok ()).map fun info => (info.name, info)) := by
  induction infos generalizing secrets with
  | nil => rfl
  | cons info infos ih =>
    rw [createSecrets, List.takeWhile_cons]
    cases haccepts : accepts info with
    | error e => rfl
    | ok u =>
      simp only [decide_true, if_true]
      rw [ih]
      rfl

/-- A bind creates its secrets and leaves the others. -/
theorem exec_eq (secrets : Secrets) (b : Bind) :
    Bind.exec ctx accepts secrets b =
      secrets.insertAll ((b.created ctx accepts).map fun info => (info.name, info)) := by
  rw [Bind.exec, getScanFunction, Bind.created, Bind.infos]
  cases secretInfos ctx b.catalog b.tableData b.metadata b.catalogSecret with
  | error e => rfl
  | ok infos => exact createSecrets_snd infos secrets

/-- The names of the secrets that a bind creates. -/
theorem created_names (b : Bind) :
    ((b.created ctx accepts).map CreateSecretInfo.name).Sublist
      ((b.added ctx).map (secretName b.schema b.table)) := by
  rw [Bind.created]
  cases h : b.infos ctx with
  | error e => exact List.nil_sublist _
  | ok infos => exact ((List.takeWhile_sublist _).map _).trans (infos_names h)

/-- After a bind, its secrets are there. -/
theorem find?_exec_self (secrets : Secrets) {b : Bind} {info : CreateSecretInfo}
    (h : info ∈ b.created ctx accepts) :
    (Bind.exec ctx accepts secrets b).find? info.name = some info := by
  rw [exec_eq]
  have hpairwise : ((b.created ctx accepts).map CreateSecretInfo.name).Pairwise
      fun n n' => ¬ ciEquals n n' :=
    (pairwise_names b).sublist (created_names b)
  refine NormMap.find?_insertAll_of_mem secrets ?_ (List.mem_map_of_mem h)
  rw [List.pairwise_map] at hpairwise ⊢
  exact hpairwise

/-- A bind of another table leaves them there. -/
theorem find?_exec_of_apart (secrets : Secrets) {b b' : Bind} (hapart : Bind.Apart ctx b b')
    {info : CreateSecretInfo} (h : info ∈ b.created ctx accepts) :
    (Bind.exec ctx accepts secrets b').find? info.name = secrets.find? info.name := by
  rw [exec_eq]
  refine NormMap.find?_insertAll_of_ne secrets fun e he heq => ?_
  obtain ⟨info', hinfo', rfl⟩ := List.mem_map.1 he
  obtain ⟨x, hx, hname⟩ := List.mem_map.1
    ((created_names b).subset (List.mem_map_of_mem h))
  obtain ⟨x', hx', hname'⟩ := List.mem_map.1
    ((created_names b').subset (List.mem_map_of_mem hinfo'))
  refine hapart x hx x' hx' ((ciEquals_secretName_iff _ _ _ _ _ _).1 ?_)
  rw [hname, hname']
  exact heq.symm

end Binds

/-- **Which secrets have one name**, and what follows for runs: where no two tables have secrets whose
names are equal up to case, each table keeps the secrets of its last bind. -/
theorem secrets_kept (ctx : CatalogContext) (accepts : CreateSecretInfo → Except Error Unit)
    (secrets : Secrets) (binds : List Bind) :
    (∀ (catalog catalog' : IRCatalogConfig) (s t x s' t' x' : String),
      secretBaseName (createTable catalog s t) ++ x = secretBaseName (createTable catalog' s' t') ++ x' ↔
        s = s' ∧ t ++ x = t' ++ x') ∧
    ((∀ b ∈ binds, ∀ b' ∈ binds, b'.id ≠ b.id → Bind.Apart ctx b b') →
      Bind.Kept ctx accepts secrets binds) := by
  constructor
  · intro catalog catalog' s t x s' t' x'
    rw [secretBaseName_append, secretBaseName_append, secretName_iff]
  · intro hapart pre b post heq hlast info hinfo
    subst heq
    have hb : b ∈ pre ++ b :: post := List.mem_append_right _ List.mem_cons_self
    -- the binds that follow are of other tables
    have hothers : ∀ b' ∈ post, Bind.Apart ctx b b' := fun b' hb' =>
      hapart b hb b' (List.mem_append_right _ (List.mem_cons_of_mem _ hb')) (hlast b' hb')
    rw [Bind.execAll, List.foldl_append, List.foldl_cons]
    have hrun : ∀ (post : List Bind), (∀ b' ∈ post, Bind.Apart ctx b b') → ∀ secrets : Secrets,
        secrets.find? info.name = some info →
          (post.foldl (Bind.exec ctx accepts) secrets).find? info.name = some info := by
      intro post
      induction post with
      | nil => exact fun _ secrets h => h
      | cons b' post ih =>
        intro hpost secrets h
        obtain ⟨hb', hpost'⟩ := List.forall_mem_cons.1 hpost
        rw [List.foldl_cons]
        exact ih hpost' _ ((find?_exec_of_apart secrets hb' hinfo).trans h)
    exact hrun post hothers _ (find?_exec_self _ hinfo)

/-! ### Tables of two catalogs -/

/-- The answer of a server for a table whose files are in a bucket. -/
def loadTableText (bucket : String) : String :=
  "\x7b\"metadata-location\": \"s3://" ++ bucket ++ "/metadata/1.json\", " ++
    "\"metadata\": \x7b\"current-schema-id\": 0, \"schemas\": [\x7b\"schema-id\": 0, \"fields\": " ++
    "[\x7b\"id\": 1, \"name\": \"x\", \"required\": true, \"type\": \"int\"\x7d]\x7d]\x7d, " ++
    "\"config\": \x7b\"s3.region\": \"eu\"\x7d\x7d"

/-- It as a value. -/
def loadTableJson (bucket : String) : Json :=
  .obj [("metadata-location", .str ("s3://" ++ bucket ++ "/metadata/1.json")),
    ("metadata", .obj [("current-schema-id", .int 0),
      ("schemas", .arr [.obj [("schema-id", .int 0), ("fields", .arr [.obj [("id", .int 1),
        ("name", .str "x"), ("required", .bool true), ("type", .str "int")]])]])]),
    ("config", .obj [("s3.region", .str "eu")])]

/-- A session that reads these answers. -/
def bucketsContext : CatalogContext where
  urlEncode := id
  yyjsonRead text :=
    if text = loadTableText "a" then some (loadTableJson "a")
    else if text = loadTableText "b" then some (loadTableJson "b")
    else none
  castUInt8 := readUInt8

/-- A bind of a table whose files are in a bucket. -/
def bucketBind (catalog : IRCatalogConfig) (bucket table : String) : Bind where
  catalog := catalog
  schema := "s"
  table := table
  storageLocation := "s3://" ++ bucket ++ "/metadata/1.json"
  columns := [⟨"x", "int", minusOne, minusOne, 0⟩]
  metadata := .ok (loadTableText bucket)
  catalogSecret := .ok (some NormMap.empty)

/-- The table of the bind is what the answer describes. -/
example : populateTableMetadata (createTable IRCatalogConfig.polaris "s" "t")
    (some (loadTableJson "a")) = .ok (bucketBind IRCatalogConfig.polaris "a" "t").tableData := by
  decide +kernel

/-- Two tables of one schema. -/
theorem secrets_kept_two :
    secretBaseName (createTable IRCatalogConfig.polaris "s" "t") ++ "" ≠
        secretBaseName (createTable IRCatalogConfig.polaris "s" "u") ++ "" ∧
      Bind.Kept bucketsContext (fun _ => .ok ()) NormMap.empty
        [bucketBind IRCatalogConfig.polaris "a" "t", bucketBind IRCatalogConfig.polaris "b" "u",
          bucketBind IRCatalogConfig.polaris "a" "t"] := by
  obtain ⟨hnames, hkept⟩ := secrets_kept bucketsContext (fun _ => .ok ()) NormMap.empty
    [bucketBind IRCatalogConfig.polaris "a" "t", bucketBind IRCatalogConfig.polaris "b" "u",
      bucketBind IRCatalogConfig.polaris "a" "t"]
  refine ⟨fun h => ?_, hkept (by decide +kernel)⟩
  have hne : ¬ ("s" = "s" ∧ "t" ++ "" = "u" ++ "") := by decide
  exact hne ((hnames _ _ _ _ _ _ _ _).1 h)

/-- Another catalog. -/
def nessie : IRCatalogConfig := ⟨"nessie", "demo", "localhost:19120", "", "v1", "main", .other⟩

/-- Tables of one name in two catalogs have secrets of one name, so that the secret of the first is
lost; and the secret of a storage credential can have the name of that of another table. -/
theorem not_secrets_kept_catalogs :
    secretBaseName (createTable IRCatalogConfig.polaris "s" "t") =
        secretBaseName (createTable nessie "s" "t") ∧
      secretBaseName (createTable nessie "s" "t") ++ indexSuffix 0 "p" =
        secretBaseName (createTable nessie "s" "t_0_p") ∧
      ¬ Bind.Kept bucketsContext (fun _ => .ok ()) NormMap.empty
        [bucketBind IRCatalogConfig.polaris "a" "t", bucketBind nessie "b" "t"] := by
  refine ⟨rfl, by decide +kernel, fun hkept => ?_⟩
  have hcreated : ((bucketBind IRCatalogConfig.polaris "a" "t").created bucketsContext
      fun _ => .ok ()).map (fun info => (info.name, info.scope)) =
        [("__internal_ic_uuid-s-table__s__t", ["s3://a/"])] := by decide +kernel
  obtain ⟨info, hcreated, hinfo⟩ := List.map_eq_singleton_iff.1 hcreated
  obtain ⟨hname, hscope⟩ := Prod.mk.inj hinfo
  have hfound := hkept [] _ _ rfl (by decide) info (hcreated ▸ List.mem_singleton_self info)
  -- the secret of that name is now for the other bucket
  have hother : ((Bind.execAll bucketsContext (fun _ => .ok ()) NormMap.empty
      [bucketBind IRCatalogConfig.polaris "a" "t", bucketBind nessie "b" "t"]).find?
        "__internal_ic_uuid-s-table__s__t").map CreateSecretInfo.scope = some ["s3://b/"] := by
    decide +kernel
  rw [← hname, hfound, Option.map_some, hscope] at hother
  exact absurd hother (by decide)

end DuckIceberg
