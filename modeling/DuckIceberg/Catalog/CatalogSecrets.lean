import DuckIceberg.Catalog.Attach

/-!
# Secrets of a catalog

`CreateCatalogSecretFunction` takes the credentials out of its options and asks the server for a token.
It is called for `CREATE SECRET`, with the options that `SetCatalogSecretParameters` declares, and by
`IcebergCatalogAttach`, with those that it has put together.

* `createCatalogSecretFunction_eq`: what is asked for, in whatever order the options are gone through;
* `catalog_secret_requests`: the statement never passes a credential on, and `ATTACH` always does.
-/

namespace DuckIceberg

open Strings IRCAPI

/-- The options of a `CreateSecretInput`: a `Value` may be `NULL`. -/
abbrev SecretOptions := CIMap (Option Value)

/-- `Value::ToString` -/
def valueText : Option Value → String
  | some value => value.toString
  | none => "NULL"

/-- The text of an option, as `secret_map[name]` gives it. -/
def SecretOptions.text (options : SecretOptions) (name : String) : String :=
  (options.find? name).elim "NULL" valueText

/-- The options that `CreateCatalogSecretFunction` knows. -/
def catalogSecretNames : List String :=
  ["key_id", "secret", "endpoint", "aws_region", "oauth2_scope", "oauth2_server_uri"]

/-- What it throws for another one. -/
def unknownNamedParameter (lowerName : String) : Error :=
  ⟨.internal, "Unknown named parameter passed to CreateIRCSecretFunction: " ++ lowerName⟩

/-- The body of the loop over the options. -/
def setSecretOption (secretMap : KeyValueSecret) (namedParam : String × Option Value) :
    Except Error KeyValueSecret :=
  let lowerName := lower namedParam.1
  if lowerName ∈ catalogSecretNames then
    .ok (secretMap.insert lowerName (valueText namedParam.2))
  else .error (unknownNamedParameter lowerName)

/-- The loop over the options, in the order that the map has them in. -/
def setSecretOptions (options : SecretOptions) : Except Error KeyValueSecret :=
  options.entries.foldlM setSecretOption NormMap.empty

/-- `CreateCatalogSecretFunction`.  A key that it looks up is in the map from then on, as `NULL`. -/
def createCatalogSecretFunction (ctx : AttachContext) (options : SecretOptions) :
    Except Error KeyValueSecret := do
  let secretMap ← setSecretOptions options
  let token ← getToken ctx (secretMap.tryGetValue "oauth2_server_uri")
    (secretMap.tryGetValue "key_id") (secretMap.tryGetValue "secret")
    (secretMap.tryGetValue "oauth2_scope")
  return secretMap.insert "token" token

/-- `SetCatalogSecretParameters` -/
def setCatalogSecretParameters : List String :=
  ["client_id", "client_secret", "endpoint", "aws_region", "token"]

/-- The options that a statement can have: the binder refuses those that are not declared. -/
def SecretOptions.Declared (options : SecretOptions) : Prop :=
  ∀ e ∈ options.entries, lower e.1 ∈ setCatalogSecretParameters

/-- The names of the options that `IcebergCatalogAttach` puts together. -/
def createSecretNames : List String :=
  ["oauth2_server_uri", "key_id", "secret", "endpoint", "oauth2_scope"]

theorem createSecretNames_distinct : (createSecretNames.map lower).Nodup := by decide

/-- `create_secret_input` of `IcebergCatalogAttach` -/
def createSecretInput (o : AttachOptions) (secret : KeyValueSecret) : SecretOptions where
  entries :=
    [("oauth2_server_uri", some (.varchar
        (if o.oauth2ServerUri = "" then o.endpoint ++ "/v1/oauth/tokens" else o.oauth2ServerUri))),
      ("key_id", (NormMap.find? secret "key_id").map Value.varchar),
      ("secret", (NormMap.find? secret "secret").map Value.varchar),
      ("endpoint", some (.varchar o.endpoint)),
      ("oauth2_scope", some (.varchar
        (if o.oauth2Scope = "" then "PRINCIPAL_ROLE:ALL" else o.oauth2Scope)))]
  distinct := createSecretNames_distinct

/-- The end of `IcebergCatalogAttach`, with its call of `CreateCatalogSecretFunction`. -/
def attachWithToken (ctx : AttachContext) (name warehouse : String) (o : AttachOptions)
    (input : KeyValueSecret → SecretOptions) : Except Error IRCatalogConfig := do
  let secretEntry ← ctx.getSecret o.secretName
  let secret ← kvSecret secretEntry.2
  let newSecret ← createCatalogSecretFunction ctx (input secret)
  match NormMap.find? newSecret "token" with
  | none => throw ⟨.io, "Failed to generate oath token"⟩
  | some token =>
    IRCatalogConfig.getConfig ctx
      { name, warehouse, host := o.endpoint, secretName := o.secretName, version := "v1",
        catalogPrefix := "", catalogType := .other } token

/-! ### The loop -/

/-- What the loop sets, when it knows all options. -/
def secretEntries (entries : List (String × Option Value)) : List (String × String) :=
  entries.map fun e => (lower e.1, valueText e.2)

/-- The loop sets all options, or stops at one that it does not know. -/
theorem foldlM_setSecretOption (entries : List (String × Option Value))
    (secretMap : KeyValueSecret) :
    ((∀ e ∈ entries, lower e.1 ∈ catalogSecretNames) ∧
        entries.foldlM setSecretOption secretMap =
          .ok (secretMap.insertAll (secretEntries entries))) ∨
      ∃ e ∈ entries, lower e.1 ∉ catalogSecretNames ∧
        entries.foldlM setSecretOption secretMap = .error (unknownNamedParameter (lower e.1)) := by
  induction entries generalizing secretMap with
  | nil => exact Or.inl ⟨List.forall_mem_nil _, rfl⟩
  | cons e entries ih =>
    rw [List.foldlM_cons, setSecretOption]
    by_cases he : lower e.1 ∈ catalogSecretNames
    · simp only [if_pos he]
      rcases ih (secretMap.insert (lower e.1) (valueText e.2)) with ⟨hall, hrun⟩ | ⟨e', he', h⟩
      · exact Or.inl ⟨List.forall_mem_cons.2 ⟨he, hall⟩, hrun⟩
      · exact Or.inr ⟨e', List.mem_cons_of_mem _ he', h⟩
    · simp only [if_neg he]
      exact Or.inr ⟨e, List.mem_cons_self, he, rfl⟩

/-- An option that is set is found by its name. -/
theorem find?_secretEntries (options : SecretOptions) (name : String) :
    (NormMap.empty.insertAll (secretEntries options.entries) : KeyValueSecret).find? name =
      (options.find? name).map valueText := by
  cases hfind : options.find? name with
  | none =>
    have hne : ∀ e ∈ secretEntries options.entries, lower e.1 ≠ lower name := by
      intro e he
      obtain ⟨x, hx, rfl⟩ := List.mem_map.1 he
      rw [lower_lower]
      exact NormMap.find?_eq_none_iff.1 hfind x hx
    rw [NormMap.find?_insertAll_of_ne _ hne]
    rfl
  | some value =>
    obtain ⟨e, he, hname, rfl⟩ := NormMap.mem_of_find? hfind
    have hdistinct : (secretEntries options.entries).Pairwise
        fun x y => lower x.1 ≠ lower y.1 := by
      rw [secretEntries, List.pairwise_map]
      simpa [List.pairwise_map] using List.nodup_iff_pairwise_ne.1 options.distinct
    have hmem : (lower e.1, valueText e.2) ∈ secretEntries options.entries :=
      List.mem_map_of_mem he
    have hset := NormMap.find?_insertAll_of_mem (NormMap.empty : KeyValueSecret) hdistinct hmem
    rw [NormMap.find?_congr _ (show lower name = lower (lower e.1) by rw [lower_lower, hname])]
    exact hset

/-- **What is asked for**: the texts of four of the options, unless there is an unknown one. -/
theorem createCatalogSecretFunction_eq (ctx : AttachContext) (options : SecretOptions) :
    (∃ e ∈ options.entries, lower e.1 ∉ catalogSecretNames ∧
        createCatalogSecretFunction ctx options = .error (unknownNamedParameter (lower e.1))) ∨
      (∀ e ∈ options.entries, lower e.1 ∈ catalogSecretNames) ∧
        ∃ secretMap : KeyValueSecret,
          (∀ name, secretMap.find? name = (options.find? name).map valueText) ∧
          createCatalogSecretFunction ctx options =
            (getToken ctx (options.text "oauth2_server_uri") (options.text "key_id")
              (options.text "secret") (options.text "oauth2_scope")).map
                (secretMap.insert "token") := by
  rcases foldlM_setSecretOption options.entries NormMap.empty with ⟨hall, hrun⟩ | ⟨e, he, hne, hrun⟩
  · refine Or.inr ⟨hall, _, find?_secretEntries options, ?_⟩
    have htext : ∀ name,
        KeyValueSecret.tryGetValue (NormMap.empty.insertAll (secretEntries options.entries)) name =
          options.text name := by
      intro name
      rw [KeyValueSecret.tryGetValue, find?_secretEntries, SecretOptions.text]
      cases options.find? name <;> rfl
    rw [createCatalogSecretFunction, setSecretOptions, hrun]
    simp only [bind, Except.bind, htext]
    cases getToken ctx (options.text "oauth2_server_uri") (options.text "key_id")
      (options.text "secret") (options.text "oauth2_scope") <;> rfl
  · refine Or.inl ⟨e, he, hne, ?_⟩
    rw [createCatalogSecretFunction, setSecretOptions, hrun]
    rfl

/-! ### `CREATE SECRET` -/

/-- The declared options that `CreateCatalogSecretFunction` does not know. -/
def credentialParameters : List String := ["client_id", "client_secret", "token"]

theorem find?_of_not_declared {options : SecretOptions} (h : options.Declared) {name : String}
    (hname : lower name ∉ setCatalogSecretParameters) : options.find? name = none := by
  rw [NormMap.find?_eq_none_iff]
  intro e he heq
  rw [← heq] at hname
  exact hname (h e he)

/-- What comes of a statement: it is refused for a credential, or asks for a token without any. -/
theorem createCatalogSecretFunction_declared (ctx : AttachContext) {options : SecretOptions}
    (h : options.Declared) :
    (∃ name ∈ credentialParameters, (options.find? name).isSome ∧
        createCatalogSecretFunction ctx options = .error (unknownNamedParameter name)) ∨
      (∀ name ∈ credentialParameters, options.find? name = none) ∧
        ∃ secretMap : KeyValueSecret,
          (∀ name, secretMap.find? name = (options.find? name).map valueText) ∧
          createCatalogSecretFunction ctx options =
            (getToken ctx "NULL" "NULL" "NULL" "NULL").map (secretMap.insert "token") := by
  rcases createCatalogSecretFunction_eq ctx options with
    ⟨e, he, hne, hrun⟩ | ⟨hall, secretMap, hset, hrun⟩
  · refine Or.inl ⟨lower e.1, ?_, ?_, hrun⟩
    · have hcases : ∀ name ∈ setCatalogSecretParameters, name ∉ catalogSecretNames →
          name ∈ credentialParameters := by decide
      exact hcases _ (h e he) hne
    · rw [NormMap.find?_of_mem he (lower_lower e.1).symm]
      rfl
  · refine Or.inr ⟨fun name hname => ?_, secretMap, hset, ?_⟩
    · rw [NormMap.find?_eq_none_iff]
      intro e he heq
      have hknown := hall e he
      have hunknown : ∀ name ∈ credentialParameters, lower name ∉ catalogSecretNames := by decide
      rw [heq] at hknown
      exact hunknown name hname hknown
    · have hnull : ∀ name ∈ ["oauth2_server_uri", "key_id", "secret", "oauth2_scope"],
          options.text name = "NULL" := by
        have hnot : ∀ name ∈ ["oauth2_server_uri", "key_id", "secret", "oauth2_scope"],
            lower name ∉ setCatalogSecretParameters := by decide
        intro name hname
        rw [SecretOptions.text, find?_of_not_declared h (hnot name hname)]
        rfl
      rw [hrun, hnull _ (by simp), hnull _ (by simp), hnull _ (by simp), hnull _ (by simp)]

/-! ### `ATTACH` -/

theorem text_perm {options options' : SecretOptions} (h : options.entries.Perm options'.entries)
    (name : String) : options.text name = options'.text name := by
  rw [SecretOptions.text, SecretOptions.text, NormMap.find?_perm h]

theorem valueText_map_varchar (o : Option String) :
    valueText (o.map Value.varchar) = o.getD "NULL" := by
  cases o <;> rfl

/-- The secret that `ATTACH` asks for has the token of its own options. -/
theorem createCatalogSecretFunction_attach (ctx : AttachContext) (o : AttachOptions)
    (secret : KeyValueSecret) {options : SecretOptions}
    (h : options.entries.Perm (createSecretInput o secret).entries) :
    ∃ secretMap : KeyValueSecret, createCatalogSecretFunction ctx options =
      (getToken ctx
        (if o.oauth2ServerUri = "" then o.endpoint ++ "/v1/oauth/tokens" else o.oauth2ServerUri)
        (secret.tryGetValue "key_id") (secret.tryGetValue "secret")
        (if o.oauth2Scope = "" then "PRINCIPAL_ROLE:ALL" else o.oauth2Scope)).map
          (secretMap.insert "token") := by
  have hknown : ∀ e ∈ options.entries, lower e.1 ∈ catalogSecretNames := by
    have hnames : ∀ name ∈ createSecretNames, lower name ∈ catalogSecretNames := by decide
    intro e he
    have hmem : e.1 ∈ createSecretNames :=
      List.mem_map_of_mem (f := Prod.fst) (h.mem_iff.1 he)
    exact hnames _ hmem
  rcases createCatalogSecretFunction_eq ctx options with ⟨e, he, hne, -⟩ | ⟨-, secretMap, -, hrun⟩
  · exact absurd (hknown e he) hne
  · refine ⟨secretMap, ?_⟩
    simp only [text_perm h] at hrun
    rw [hrun]
    have htext : ∀ name value, (name, value) ∈ (createSecretInput o secret).entries →
        (createSecretInput o secret).text name = valueText value := by
      intro name value hmem
      rw [SecretOptions.text, NormMap.find?_of_mem hmem rfl]
      rfl
    rw [htext "oauth2_server_uri" _ (.head _), htext "key_id" _ (.tail _ (.head _)),
      htext "secret" _ (.tail _ (.tail _ (.head _))),
      htext "oauth2_scope" _ (.tail _ (.tail _ (.tail _ (.tail _ (.head _))))),
      valueText_map_varchar, valueText_map_varchar]
    rfl

/-- `IcebergCatalogAttach` does what it does through `CreateCatalogSecretFunction`. -/
theorem attachWithToken_eq (ctx : AttachContext) (name warehouse : String) (o : AttachOptions)
    {input : KeyValueSecret → SecretOptions}
    (h : ∀ secret, (input secret).entries.Perm (createSecretInput o secret).entries) :
    attachWithToken ctx name warehouse o input = attachOther ctx name warehouse o := by
  unfold attachWithToken attachOther
  cases ctx.getSecret o.secretName with
  | error e => rfl
  | ok secretEntry =>
    cases hsecret : kvSecret secretEntry.2 with
    | error e => simp only [bind, Except.bind, hsecret]
    | ok secret =>
      obtain ⟨secretMap, hrun⟩ := createCatalogSecretFunction_attach ctx o secret (h secret)
      simp only [bind, Except.bind, hsecret, hrun]
      cases getToken ctx
        (if o.oauth2ServerUri = "" then o.endpoint ++ "/v1/oauth/tokens" else o.oauth2ServerUri)
        (secret.tryGetValue "key_id") (secret.tryGetValue "secret")
        (if o.oauth2Scope = "" then "PRINCIPAL_ROLE:ALL" else o.oauth2Scope) with
      | error e => rfl
      | ok token =>
        have hfind : (secretMap.insert "token" token).find? "token" = some token := by
          rw [NormMap.find?_insert, if_pos rfl]
        simp only [Except.map, hfind]

/-- **Requests for a token.**  No statement passes a credential on: where it gives one it is refused, and
else the token is asked for with `NULL` for the URI, the id, the secret and the scope.  `ATTACH` asks for
it with its own options and the credentials of its secret. -/
theorem catalog_secret_requests (ctx : AttachContext) :
    (∀ options : SecretOptions, options.Declared →
      (∃ name ∈ credentialParameters, (options.find? name).isSome ∧
          createCatalogSecretFunction ctx options = .error (unknownNamedParameter name)) ∨
        (∀ name ∈ credentialParameters, options.find? name = none) ∧
          ∃ secretMap : KeyValueSecret,
            (∀ name, secretMap.find? name = (options.find? name).map valueText) ∧
            createCatalogSecretFunction ctx options =
              (getToken ctx "NULL" "NULL" "NULL" "NULL").map (secretMap.insert "token")) ∧
      ∀ (name warehouse : String) (o : AttachOptions) (input : KeyValueSecret → SecretOptions),
        (∀ secret, (input secret).entries.Perm (createSecretInput o secret).entries) →
          attachWithToken ctx name warehouse o input = attachOther ctx name warehouse o :=
  ⟨fun _ h => createCatalogSecretFunction_declared ctx h,
    fun name warehouse o _ h => attachWithToken_eq ctx name warehouse o h⟩

/-- The options of a statement that gives an id. -/
def clientOptions : SecretOptions := NormMap.empty.insert "CLIENT_ID" (some (.varchar "root"))

theorem clientOptions_declared : clientOptions.Declared := by
  have hlower : lower "CLIENT_ID" ∈ setCatalogSecretParameters := by decide
  exact List.forall_mem_singleton.2 hlower

theorem catalog_secret_requests_client :
    createCatalogSecretFunction plainServer clientOptions =
        .error (unknownNamedParameter "client_id") ∧
      attachWithToken plainServer "lake" "wh" { endpoint := "localhost:8181" }
          (createSecretInput { endpoint := "localhost:8181" }) =
        attachOther plainServer "lake" "wh" { endpoint := "localhost:8181" } := by
  obtain ⟨hstatement, hattach⟩ := catalog_secret_requests plainServer
  refine ⟨?_, hattach _ _ _ _ fun _ => List.Perm.refl _⟩
  have hothers : ∀ name ∈ credentialParameters, (clientOptions.find? name).isSome = true →
      name = "client_id" := by decide
  rcases hstatement clientOptions clientOptions_declared with ⟨name, hname, hgiven, hrun⟩ | ⟨hnone, -⟩
  · rwa [hothers name hname hgiven] at hrun
  · exact absurd (hnone "client_id" (by decide)) (by decide)

end DuckIceberg
