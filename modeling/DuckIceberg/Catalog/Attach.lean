import DuckIceberg.Catalog.TableCredentials
import DuckIceberg.Lib.Search
import Mathlib.Data.List.DropRight

/-!
# Attaching a catalog

`IcebergCatalogAttach`: the options of `ATTACH` give the type of a catalog and its host.  Whether a
catalog is one of AWS is decided by its type in `GetBaseUrl`, and by the beginning of its host in
`GetRequest` and in `GetScanFunction`.

* `attachOptions_eq`: what the loop over the options leaves is what the last option says;
* `agreesOnAws_iff`: the three decide the same exactly when an endpoint type is given or the endpoint
  begins with neither `glue` nor `s3tables`.
-/

namespace DuckIceberg

open Strings Json IcebergUtils

/-- What attaching a catalog uses of DuckDB and of other libraries. -/
structure AttachContext extends CatalogContext where
  /-- `IRCatalog::GetSecret`: the name of the secret that is found, and the secret -/
  getSecret : String → Except Error (String × Option KeyValueSecret)
  /-- `StringUtil::URLDecode` -/
  urlDecode : String → String
  /-- `APIUtils::PostRequest`, of a URL and the data that is posted -/
  postRequest : String → String → Except Error String
  /-- A request by `curl`, of a URL and with a token -/
  curlRequest : String → String → Except Error String
  /-- `GetRequestAws`, after the service and the region it signs for -/
  awsRequest : String → String → IRCEndpointBuilder → String → Except Error String

/-! ### Requests -/

namespace APIUtils

/-- `GetAwsService` -/
def getAwsService (host : String) : String := String.ofList (host.toList.takeWhile (· ≠ '.'))

/-- `GetAwsRegion` -/
def getAwsRegion (host : String) : String :=
  -- without a dot `first_dot + 1` wraps around to zero, and the whole host is taken
  let afterFirstDot :=
    if '.' ∈ host.toList then (host.toList.dropWhile (· ≠ '.')).drop 1 else host.toList
  String.ofList (afterFirstDot.takeWhile (· ≠ '.'))

/-- `GetRequest` -/
def getRequest (ctx : AttachContext) (endpointBuilder : IRCEndpointBuilder)
    (secretName token : String) : Except Error String :=
  if startsWith endpointBuilder.host "glue." || startsWith endpointBuilder.host "s3tables." then
    ctx.awsRequest (getAwsService endpointBuilder.host) (getAwsRegion endpointBuilder.host)
      endpointBuilder secretName
  else ctx.curlRequest (endpointBuilder.getURL ctx.urlEncode) token

/-- The service that `GetRequest` signs for. -/
def signedService (host : String) : Option String :=
  if startsWith host "glue." || startsWith host "s3tables." then some (getAwsService host) else none

theorem getRequest_eq (ctx : AttachContext) (endpointBuilder : IRCEndpointBuilder)
    (secretName token : String) :
    getRequest ctx endpointBuilder secretName token =
      match signedService endpointBuilder.host with
      | some service =>
        ctx.awsRequest service (getAwsRegion endpointBuilder.host) endpointBuilder secretName
      | none => ctx.curlRequest (endpointBuilder.getURL ctx.urlEncode) token := by
  unfold getRequest signedService
  by_cases h : (startsWith endpointBuilder.host "glue." ||
    startsWith endpointBuilder.host "s3tables.") = true
  · rw [if_pos h, if_pos h]
  · rw [if_neg h, if_neg h]

end APIUtils

namespace IRCAPI

/-- `yyjson_get_str`, with the `std::string` made of it -/
def stringOf : Json → Except Error String
  | .str s => .ok (cString s)
  | _ => .error ⟨.undefined, "a string is made of a null pointer"⟩

/-- `GetToken` -/
def getToken (ctx : AttachContext) (uri id secret scope : String) : Except Error String := do
  let apiResult ← ctx.postRequest uri ("grant_type=client_credentials&client_id=" ++ id ++
    "&client_secret=" ++ secret ++ "&scope=" ++ scope)
  let root ← apiResultToDoc ctx.toCatalogContext apiResult
  match objGet root "access_token", objGet root "token_type" with
  | none, _ => throw ⟨.io, "OAuthTokenResponse is missing required property 'access_token'"⟩
  | some _, none => throw ⟨.io, "OAuthTokenResponse is missing required property 'token_type'"⟩
  | some accessToken, some tokenType =>
    let tokenType ← stringOf tokenType
    if ciEquals tokenType "bearer" then stringOf accessToken
    else throw ⟨.notImplemented, "token_type return value '" ++ tokenType ++
      "' is not supported, only supports 'bearer' currently."⟩

end IRCAPI

namespace IRCatalogConfig

/-- The members `yyjson_obj_iter` goes through. -/
def members : Option Json → List (String × Json)
  | some (.obj ms) => ms
  | _ => []

/-- The loops of `GetConfig`: the last member that is called `prefix`. -/
def configPrefix (urlDecode : String → String) :
    List (String × Json) → String → Except Error String
  | [], catalogPrefix => .ok catalogPrefix
  | (key, val) :: ms, catalogPrefix => do
    let val ← IRCAPI.stringOf val
    configPrefix urlDecode ms (if cString key = "prefix" then urlDecode val else catalogPrefix)

/-- The endpoint of the configuration. -/
def configEndpoint (catalog : IRCatalogConfig) : IRCEndpointBuilder :=
  { catalog.getBaseUrl.addPathComponent "config" with params := [("warehouse", catalog.warehouse)] }

/-- `GetConfig` -/
def getConfig (ctx : AttachContext) (catalog : IRCatalogConfig) (token : String) :
    Except Error IRCatalogConfig := do
  let response ← APIUtils.getRequest ctx catalog.configEndpoint catalog.secretName token
  let root ← apiResultToDoc ctx.toCatalogContext response
  let defaults ← configPrefix ctx.urlDecode (members (objGet root "defaults")) catalog.catalogPrefix
  let catalogPrefix ← configPrefix ctx.urlDecode (members (objGet root "overrides")) defaults
  return { catalog with catalogPrefix }

end IRCatalogConfig

/-! ### Options -/

/-- The options of `IcebergCatalogAttach`, before any of them is read. -/
structure AttachOptions where
  secretName : String := ""
  endpointType : String := ""
  endpoint : String := ""
  oauth2Scope : String := ""
  oauth2ServerUri : String := ""

/-- `StringUtil::RTrim`, of slashes -/
def rTrimSlashes (s : String) : String := String.ofList (s.toList.rdropWhile (· = '/'))

/-- The body of the loop over the options. -/
def attachOption (o : AttachOptions) (entry : String × Value) : Except Error AttachOptions :=
  let lowerName := lower entry.1
  let value := lower entry.2.toString
  if lowerName = "type" ∨ lowerName = "read_only" then .ok o
  else if lowerName = "secret" then .ok { o with secretName := value }
  else if lowerName = "endpoint_type" then .ok { o with endpointType := value }
  else if lowerName = "endpoint" then .ok { o with endpoint := rTrimSlashes value }
  else if lowerName = "oauth2_scope" then .ok { o with oauth2Scope := value }
  else if lowerName = "oauth2_server_uri" then .ok { o with oauth2ServerUri := value }
  else .error ⟨.binder, "Unrecognized option for PC attach: " ++ entry.1⟩

/-- The loop over the options. -/
def attachOptions (options : List (String × Value)) : Except Error AttachOptions :=
  options.foldlM attachOption {}

/-! ### Catalogs -/

/-- `StringUtil::Split` at the colons, which gives no empty pieces -/
def warehouseSubstrings (warehouse : String) : List (List Char) :=
  let substrings := (splitList ':' warehouse.toList).filter (· ≠ [])
  if substrings = [] then [warehouse.toList] else substrings

/-- `SanityCheckGlueWarehouse` -/
def sanityCheckGlueWarehouse (warehouse : String) : Except Error Unit :=
  if find warehouse ":" ≠ some 12 then
    .error ⟨.io, "Invalid Glue Catalog Format: '" ++ warehouse ++
      "'. Expect 12 digits for account_id."⟩
  else if find warehouse "/" = some 28 then .ok ()
  else
    .error ⟨.io, "Invalid Glue Catalog Format: '" ++ warehouse ++
      "'. Expected '<account_id>:s3tablescatalog/<bucket>"⟩

/-- The service and the region in the host of a catalog of AWS. -/
def awsHost (catalogType : IcebergCatalogType) (warehouse region : String) :
    Except Error (String × String) :=
  match catalogType with
  | .awsS3Tables =>
    match warehouseSubstrings warehouse with
    | [_, _, _, region, _, _] => .ok ("s3tables", String.ofList region)
    | _ => .error ⟨.invalidInput, "Could not parse S3 Tables arn warehouse value"⟩
  | .awsGlue => do
    sanityCheckGlueWarehouse warehouse
    return ("glue", region)
  | _ => .error ⟨.io, "Unsupported AWS catalog type"⟩

/-- A catalog of AWS. -/
def attachAws (ctx : AttachContext) (name warehouse : String) (o : AttachOptions)
    (catalogType : IcebergCatalogType) : Except Error IRCatalogConfig := do
  let secretEntry ← ctx.getSecret o.secretName
  let secret ← kvSecret secretEntry.2
  match NormMap.find? secret "region" with
  | none =>
    throw ⟨.io, "Assumed catalog secret " ++ secretEntry.1 ++ " for catalog " ++ name ++
      " does not have a region"⟩
  | some region =>
    let host ← awsHost catalogType warehouse region
    IRCatalogConfig.getConfig ctx
      { name, warehouse, host := host.1 ++ "." ++ host.2 ++ ".amazonaws.com",
        secretName := o.secretName, version := "v1", catalogPrefix := "", catalogType } ""

/-- A catalog that is asked for a token first. -/
def attachOther (ctx : AttachContext) (name warehouse : String) (o : AttachOptions) :
    Except Error IRCatalogConfig := do
  let oauth2Scope := if o.oauth2Scope = "" then "PRINCIPAL_ROLE:ALL" else o.oauth2Scope
  let oauth2ServerUri :=
    if o.oauth2ServerUri = "" then o.endpoint ++ "/v1/oauth/tokens" else o.oauth2ServerUri
  let secretEntry ← ctx.getSecret o.secretName
  let secret ← kvSecret secretEntry.2
  let token ← IRCAPI.getToken ctx oauth2ServerUri (secret.tryGetValue "key_id")
    (secret.tryGetValue "secret") oauth2Scope
  IRCatalogConfig.getConfig ctx
    { name, warehouse, host := o.endpoint, secretName := o.secretName, version := "v1",
      catalogPrefix := "", catalogType := .other } token

/-- `IcebergCatalogAttach`.  `warehouse` is the path of the `ATTACH` statement. -/
def icebergCatalogAttach (ctx : AttachContext) (name : String) (options : List (String × Value))
    (warehouse : String) : Except Error IRCatalogConfig := do
  let o ← attachOptions options
  if o.endpointType = "s3_tables" then attachAws ctx name warehouse o .awsS3Tables
  else if o.endpointType = "glue" then attachAws ctx name warehouse o .awsGlue
  else if o.endpointType ≠ "" then
    throw ⟨.io, "Unrecognized endpoint point: " ++ o.endpointType ++
      ". Expected either S3_TABLES or GLUE"⟩
  else if o.endpoint = "" then throw ⟨.io, "No endpoint type or endpoint provided"⟩
  else attachOther ctx name warehouse o

/-! ### What the options say -/

/-- What the last option of a name says. -/
def optionText (options : List (String × Value)) (name : String) : String :=
  match (options.filter fun entry => lower entry.1 = name).getLast? with
  | some entry => lower entry.2.toString
  | none => ""

theorem optionText_concat (options : List (String × Value)) (entry : String × Value)
    (name : String) :
    optionText (options ++ [entry]) name =
      if lower entry.1 = name then lower entry.2.toString else optionText options name := by
  unfold optionText
  by_cases h : lower entry.1 = name
  · rw [if_pos h, List.filter_append, List.filter_cons_of_pos (by simpa using h)]
    simp
  · rw [if_neg h, List.filter_append, List.filter_cons_of_neg (by simpa using h)]
    simp

/-- What one option changes. -/
theorem attachOption_eq {o o' : AttachOptions} {entry : String × Value}
    (h : attachOption o entry = .ok o') :
    o'.endpointType =
        (if lower entry.1 = "endpoint_type" then lower entry.2.toString else o.endpointType) ∧
      o'.endpoint =
        (if lower entry.1 = "endpoint" then rTrimSlashes (lower entry.2.toString)
          else o.endpoint) := by
  unfold attachOption at h
  dsimp only at h
  split_ifs at h with htype hsecret hendpointType hendpoint hscope huri <;> cases h
  · rcases htype with htype | htype <;> simp [htype]
  all_goals simp_all

/-- What the loop leaves. -/
theorem attachOptions_eq {options : List (String × Value)} {o : AttachOptions}
    (h : attachOptions options = .ok o) :
    o.endpointType = optionText options "endpoint_type" ∧
      o.endpoint = rTrimSlashes (optionText options "endpoint") := by
  induction options using List.reverseRecOn generalizing o with
  | nil =>
    cases h
    exact ⟨rfl, rfl⟩
  | append_singleton options entry ih =>
    rw [attachOptions, List.foldlM_append] at h
    obtain ⟨o', ho', h⟩ := bind_eq_ok.1 h
    rw [List.foldlM_cons] at h
    obtain ⟨o'', ho'', h⟩ := bind_eq_ok.1 h
    cases h
    obtain ⟨htype, hendpoint⟩ := attachOption_eq ho''
    obtain ⟨ihtype, ihendpoint⟩ := ih ho'
    rw [htype, hendpoint, optionText_concat, optionText_concat, ihtype, ihendpoint]
    refine ⟨rfl, ?_⟩
    -- the endpoint is trimmed when it is set, so that what is left of the last one is
    split_ifs <;> rfl

/-- A text without slashes begins what is trimmed when it begins the whole. -/
theorem startsWith_rTrimSlashes {pat : String} (hpat : '/' ∉ pat.toList) (s : String) :
    startsWith (rTrimSlashes s) pat = startsWith s pat := by
  unfold startsWith rTrimSlashes
  rw [String.toList_ofList, Bool.eq_iff_iff, List.isPrefixOf_iff_prefix, List.isPrefixOf_iff_prefix]
  generalize s.toList = l
  induction l using List.reverseRecOn with
  | nil => simp
  | append_singleton l c ih =>
    by_cases hc : c = '/'
    · subst hc
      rw [List.rdropWhile_concat_pos _ _ _ (by simp), ih]
      exact ⟨fun h => h.trans (List.prefix_append l _), fun h => prefix_of_prefix_append hpat h⟩
    · rw [List.rdropWhile_concat_neg _ _ _ (by simpa using hc)]

/-! ### The three tests -/

/-- The services of AWS a catalog can be of. -/
inductive AwsService
  | glue
  | s3Tables
  deriving DecidableEq, Repr

/-- What the service is called in a host. -/
def AwsService.name : AwsService → String
  | .glue => "glue"
  | .s3Tables => "s3tables"

/-- The service by the type of the catalog. -/
def IRCatalogConfig.awsService (catalog : IRCatalogConfig) : Option AwsService :=
  match catalog.catalogType with
  | .awsGlue => some .glue
  | .awsS3Tables => some .s3Tables
  | _ => none

/-- The service whose options `GetScanFunction` puts in the place of those of the table. -/
def ICTableEntry.overridingService (host : String) : Option AwsService :=
  if startsWith host "glue" then some .glue
  else if startsWith host "s3tables" then some .s3Tables
  else none

/-- All parts of the code agree on whether the catalog is one of AWS, and of which service. -/
structure AgreesOnAws (catalog : IRCatalogConfig) : Prop where
  /-- `GetBaseUrl` adds the path of a service of AWS -/
  baseUrl : catalog.getBaseUrl.pathComponents ≠ [] ↔ catalog.awsService.isSome
  /-- `GetRequest` signs for the service -/
  request : APIUtils.signedService catalog.host = catalog.awsService.map AwsService.name
  /-- `GetScanFunction` overrides the options for the service -/
  scan : ICTableEntry.overridingService catalog.host = catalog.awsService
  /-- where it reads `substrings[3]` there are six of them -/
  warehouse : ICTableEntry.overridingService catalog.host = some .s3Tables →
    (warehouseSubstrings catalog.warehouse).length = 6

theorem getBaseUrl_pathComponents (catalog : IRCatalogConfig) :
    catalog.getBaseUrl.pathComponents ≠ [] ↔ catalog.awsService.isSome := by
  unfold IRCatalogConfig.getBaseUrl IRCatalogConfig.awsService
  cases catalog.catalogType
  case awsS3Tables | awsGlue =>
    refine iff_of_true ?_ rfl
    unfold IRCEndpointBuilder.addPathComponent
    split_ifs <;> simp_all
  all_goals simp

/-- The options that `GetScanFunction` puts in the place of those of the table, by the service: Glue
has its own endpoint, S3 Tables has options of its own only, and no other host has any. -/
theorem awsOptions_eq (catalog : IRCatalogConfig) (catalogSecret : FoundSecret)
    (options : CIMap Value) :
    ICTableEntry.awsOptions catalog catalogSecret options =
      match ICTableEntry.overridingService catalog.host with
      | some .glue => do
        let secret ← kvSecret (← catalogSecret)
        return options.insert "endpoint"
          (.varchar (ICTableEntry.awsEndpoint (secret.tryGetValue "region")))
      | some .s3Tables => do
        let secret ← kvSecret (← catalogSecret)
        let region ← ICTableEntry.warehouseRegion catalog.warehouse
        return [("key_id", secret.tryGetValue "key_id"), ("secret", secret.tryGetValue "secret"),
          ("session_token", (NormMap.find? secret "session_token").getD ""), ("region", region),
          ("endpoint", ICTableEntry.awsEndpoint region)].foldl
          (fun options entry => NormMap.insert options entry.1 (.varchar entry.2)) NormMap.empty
      | none => .ok options := by
  unfold ICTableEntry.awsOptions ICTableEntry.overridingService
  by_cases hglue : startsWith catalog.host "glue" = true
  · rw [if_pos hglue, if_pos hglue]
  · rw [if_neg hglue, if_neg hglue]
    by_cases hs3Tables : startsWith catalog.host "s3tables" = true
    · rw [if_pos hs3Tables, if_pos hs3Tables]
    · rw [if_neg hs3Tables, if_neg hs3Tables]

/-- A warehouse of six parts has a region. -/
theorem warehouseRegion_of_length {warehouse : String}
    (h : (warehouseSubstrings warehouse).length = 6) :
    ∃ region, ICTableEntry.warehouseRegion warehouse = .ok region := by
  have hlt : 3 < (warehouseSubstrings warehouse).length := by omega
  have hget := List.getElem?_eq_getElem hlt
  unfold warehouseSubstrings at hget
  unfold ICTableEntry.warehouseRegion
  dsimp only at hget ⊢
  rw [hget]
  exact ⟨_, rfl⟩

/-! ### Attached catalogs -/

/-- A server that gives tokens and has no configuration, with a secret for a region. -/
def plainServer : AttachContext where
  urlEncode s := s
  yyjsonRead _ := some (.obj [("access_token", .str "token"), ("token_type", .str "bearer")])
  castUInt8 _ := none
  getSecret _ := .ok ("s3", some (NormMap.empty.insert "region" "us-east-1"))
  urlDecode s := s
  postRequest _ _ := .ok ""
  curlRequest _ _ := .ok ""
  awsRequest _ _ _ _ := .ok ""

theorem awsHost_eq_ok {catalogType : IcebergCatalogType} {warehouse region : String}
    {host : String × String} (h : awsHost catalogType warehouse region = .ok host) :
    catalogType = .awsS3Tables ∧ host.1 = "s3tables" ∧ (warehouseSubstrings warehouse).length = 6 ∨
      catalogType = .awsGlue ∧ host.1 = "glue" := by
  unfold awsHost at h
  cases catalogType with
  | awsS3Tables =>
    dsimp only at h
    split at h
    · next hparts =>
      cases h
      exact Or.inl ⟨rfl, rfl, by rw [hparts]; rfl⟩
    · cases h
  | awsGlue =>
    obtain ⟨-, -, h⟩ := bind_eq_ok.1 h
    cases h
    exact Or.inr ⟨rfl, rfl⟩
  | other | invalid => cases h

/-- `GetConfig` sets the prefix only. -/
theorem getConfig_eq_ok {ctx : AttachContext} {catalog catalog' : IRCatalogConfig} {token : String}
    (h : catalog.getConfig ctx token = .ok catalog') :
    ∃ catalogPrefix, catalog' = { catalog with catalogPrefix } := by
  unfold IRCatalogConfig.getConfig at h
  obtain ⟨_, -, h⟩ := bind_eq_ok.1 h
  obtain ⟨_, -, h⟩ := bind_eq_ok.1 h
  obtain ⟨_, -, h⟩ := bind_eq_ok.1 h
  obtain ⟨catalogPrefix, -, h⟩ := bind_eq_ok.1 h
  cases h
  exact ⟨catalogPrefix, rfl⟩

/-- A catalog of AWS has the host of its service. -/
theorem attachAws_eq_ok {ctx : AttachContext} {name warehouse : String} {o : AttachOptions}
    {catalogType : IcebergCatalogType} {catalog : IRCatalogConfig}
    (h : attachAws ctx name warehouse o catalogType = .ok catalog) :
    ∃ (service : AwsService) (region : String), catalog.awsService = some service ∧
      catalog.host = service.name ++ "." ++ region ++ ".amazonaws.com" ∧
      (service = .s3Tables → (warehouseSubstrings catalog.warehouse).length = 6) := by
  unfold attachAws at h
  obtain ⟨secretEntry, -, h⟩ := bind_eq_ok.1 h
  obtain ⟨secret, -, h⟩ := bind_eq_ok.1 h
  cases hregion : NormMap.find? secret "region" with
  | none =>
    rw [hregion] at h
    cases h
  | some region =>
    rw [hregion] at h
    obtain ⟨host, hhost, h⟩ := bind_eq_ok.1 h
    obtain ⟨catalogPrefix, rfl⟩ := getConfig_eq_ok h
    rcases awsHost_eq_ok hhost with ⟨rfl, hname, hlength⟩ | ⟨rfl, hname⟩
    · exact ⟨.s3Tables, host.2, rfl, by rw [hname]; rfl, fun _ => hlength⟩
    · exact ⟨.glue, host.2, rfl, by rw [hname]; rfl, nofun⟩

theorem attachOther_eq_ok {ctx : AttachContext} {name warehouse : String} {o : AttachOptions}
    {catalog : IRCatalogConfig} (h : attachOther ctx name warehouse o = .ok catalog) :
    catalog.awsService = none ∧ catalog.host = o.endpoint := by
  unfold attachOther at h
  obtain ⟨_, -, h⟩ := bind_eq_ok.1 h
  obtain ⟨_, -, h⟩ := bind_eq_ok.1 h
  obtain ⟨_, -, h⟩ := bind_eq_ok.1 h
  obtain ⟨catalogPrefix, rfl⟩ := getConfig_eq_ok h
  exact ⟨rfl, rfl⟩

/-- The tests of a host that begins with the name of a service and a dot. -/
theorem hostTests (service : AwsService) (rest : String) :
    APIUtils.signedService (service.name ++ "." ++ rest) = some service.name ∧
      ICTableEntry.overridingService (service.name ++ "." ++ rest) = some service := by
  unfold APIUtils.signedService APIUtils.getAwsService ICTableEntry.overridingService startsWith
  cases service <;> simp [AwsService.name]

theorem agreesOnAws_of_awsService {catalog : IRCatalogConfig} {service : AwsService}
    {region : String} (hservice : catalog.awsService = some service)
    (hhost : catalog.host = service.name ++ "." ++ region ++ ".amazonaws.com")
    (hwarehouse : service = .s3Tables → (warehouseSubstrings catalog.warehouse).length = 6) :
    AgreesOnAws catalog := by
  obtain ⟨hsigned, hoverriding⟩ := hostTests service (region ++ ".amazonaws.com")
  rw [← String.append_assoc, ← hhost] at hsigned hoverriding
  refine ⟨getBaseUrl_pathComponents catalog, ?_, ?_, fun h => ?_⟩
  · rw [hsigned, hservice]
    rfl
  · rw [hoverriding, hservice]
  · rw [hoverriding] at h
    exact hwarehouse (Option.some.inj h)

/-- A catalog of another service is taken for one of AWS by its host. -/
theorem agreesOnAws_iff_of_none {catalog : IRCatalogConfig} (hservice : catalog.awsService = none) :
    AgreesOnAws catalog ↔
      startsWith catalog.host "glue" = false ∧ startsWith catalog.host "s3tables" = false := by
  constructor
  · intro h
    have hscan := h.scan
    rw [hservice] at hscan
    unfold ICTableEntry.overridingService at hscan
    split_ifs at hscan with hglue hs3Tables
    exact ⟨by simpa using hglue, by simpa using hs3Tables⟩
  · rintro ⟨hglue, hs3Tables⟩
    -- a host that begins with the longer text begins with the shorter one
    have hdot : ∀ {pat pat' : String}, pat.toList <+: pat'.toList →
        startsWith catalog.host pat = false → startsWith catalog.host pat' = false := by
      intro pat pat' hpat hhost
      rw [startsWith, Bool.eq_false_iff, Ne, List.isPrefixOf_iff_prefix] at hhost ⊢
      exact fun h => hhost (hpat.trans h)
    have hscan : ICTableEntry.overridingService catalog.host = none := by
      unfold ICTableEntry.overridingService
      rw [hglue, hs3Tables]
      rfl
    refine ⟨getBaseUrl_pathComponents catalog, ?_, hscan.trans hservice.symm, fun h => ?_⟩
    · unfold APIUtils.signedService
      rw [hdot (by decide) hglue, hdot (by decide) hs3Tables, hservice]
      rfl
    · rw [hscan] at h
      cases h

/-- **An attached catalog** is the same to all parts of the code exactly when an endpoint type is
given or the endpoint begins with neither `glue` nor `s3tables`. -/
theorem agreesOnAws_iff {ctx : AttachContext} {name : String} {options : List (String × Value)}
    {warehouse : String} {catalog : IRCatalogConfig}
    (h : icebergCatalogAttach ctx name options warehouse = .ok catalog) :
    AgreesOnAws catalog ↔
      optionText options "endpoint_type" ≠ "" ∨
        startsWith (optionText options "endpoint") "glue" = false ∧
          startsWith (optionText options "endpoint") "s3tables" = false := by
  unfold icebergCatalogAttach at h
  obtain ⟨o, ho, h⟩ := bind_eq_ok.1 h
  obtain ⟨htype, hendpoint⟩ := attachOptions_eq ho
  rw [← htype]
  split_ifs at h with hs3Tables hglue hother hnone
  · obtain ⟨service, region, hservice, hhost, hlength⟩ := attachAws_eq_ok h
    refine iff_of_true (agreesOnAws_of_awsService hservice hhost hlength) (Or.inl ?_)
    rw [hs3Tables]
    decide
  · obtain ⟨service, region, hservice, hhost, hlength⟩ := attachAws_eq_ok h
    refine iff_of_true (agreesOnAws_of_awsService hservice hhost hlength) (Or.inl ?_)
    rw [hglue]
    decide
  · obtain ⟨hservice, hhost⟩ := attachOther_eq_ok h
    rw [agreesOnAws_iff_of_none hservice, hhost, hendpoint,
      startsWith_rTrimSlashes (by decide), startsWith_rTrimSlashes (by decide), or_iff_right hother]

/-- The catalog of Glue that this server is asked for. -/
def glueCatalog : IRCatalogConfig where
  name := "lake"
  warehouse := "123456789012:s3tablescatalog/bucket"
  host := "glue.us-east-1.amazonaws.com"
  secretName := ""
  version := "v1"
  catalogPrefix := ""
  catalogType := .awsGlue

theorem agreesOnAws_glueCatalog :
    icebergCatalogAttach plainServer "lake"
        [("type", .varchar "iceberg"), ("endpoint_type", .varchar "GLUE")]
        "123456789012:s3tablescatalog/bucket" = .ok glueCatalog ∧ AgreesOnAws glueCatalog := by
  have hattach : icebergCatalogAttach plainServer "lake"
      [("type", .varchar "iceberg"), ("endpoint_type", .varchar "GLUE")]
      "123456789012:s3tablescatalog/bucket" = .ok glueCatalog := rfl
  exact ⟨hattach, (agreesOnAws_iff hattach).2 (Or.inl (by decide))⟩

/-- A server whose host begins with `s3tables` is taken for the service of AWS. -/
theorem not_agreesOnAws_s3tables :
    ¬ ∀ (ctx : AttachContext) (name : String) (options : List (String × Value))
        (warehouse : String) (catalog : IRCatalogConfig),
        icebergCatalogAttach ctx name options warehouse = .ok catalog → AgreesOnAws catalog := by
  intro h
  have hagrees := h plainServer "lake" [("endpoint", .varchar "s3tables.example.com")] "wh" _ rfl
  have hscan := hagrees.scan
  revert hscan
  decide

end DuckIceberg
