import DuckIceberg.Catalog.Attach

/-!
# The region of a catalog of AWS

`IcebergCatalogAttach` writes the region of a catalog of AWS into its host: the region of the secret for
Glue, and the fourth part of the warehouse for S3 Tables.  `GetRequest` reads it back out of the host to
sign the requests, and `GetScanFunction` looks it up once more, in the secret or in the warehouse, for
the endpoint that the tables are read from.

* `getAwsRegion_host`: what is read out of the host is the region up to its first dot;
* `AttachedRegion.awsOptions`: what is looked up is the whole region;
* `oneRegion_iff`: so the two are the same region exactly when it has no dot.
-/

namespace DuckIceberg

open Strings

/-- What `IRCatalog::GetSecret` finds for the catalog. -/
def IRCatalogConfig.foundSecret (ctx : AttachContext) (catalog : IRCatalogConfig) : FoundSecret :=
  (ctx.getSecret catalog.secretName).map Prod.snd

/-- The region that the catalog is attached with. -/
def IRCatalogConfig.awsRegion (ctx : AttachContext) (catalog : IRCatalogConfig) : Option String :=
  match catalog.awsService, catalog.foundSecret ctx with
  | some .glue, .ok (some secret) => NormMap.find? secret "region"
  | some .s3Tables, .ok (some _) => (warehouseSubstrings catalog.warehouse)[3]?.map String.ofList
  | _, _ => none

/-- `GetScanFunction` sets the endpoint of the region that `GetRequest` signs for. -/
def OneRegion (ctx : AttachContext) (catalog : IRCatalogConfig) : Prop :=
  ∀ options, ∃ out, ICTableEntry.awsOptions catalog (catalog.foundSecret ctx) options = .ok out ∧
    out.find? "endpoint" =
      some (.varchar (ICTableEntry.awsEndpoint (APIUtils.getAwsRegion catalog.host)))

/-! ### Reading the host -/

/-- A `c` that follows a list does not change what stands before the first one. -/
theorem takeWhile_ne_append {c : Char} (l rest : List Char) :
    (l ++ c :: rest).takeWhile (· ≠ c) = l.takeWhile (· ≠ c) := by
  have hrest : (c :: rest).takeWhile (· ≠ c) = [] := List.takeWhile_cons_of_neg (by simp)
  rw [List.takeWhile_append, hrest, List.append_nil]
  split_ifs with hlen
  · exact ((List.takeWhile_prefix _).eq_of_length hlen).symm
  · rfl

theorem dropWhile_ne_append {c : Char} {l : List Char} (hl : c ∉ l) (rest : List Char) :
    (l ++ c :: rest).dropWhile (· ≠ c) = c :: rest := by
  have hne : ∀ a ∈ l, decide (a ≠ c) = true := by
    intro a ha
    rw [decide_eq_true_eq]
    rintro rfl
    exact hl ha
  rw [List.dropWhile_append_of_pos hne]
  exact List.dropWhile_cons_of_neg (by simp)

/-- The host of a catalog of AWS. -/
theorem getAwsRegion_host (service : AwsService) (region : String) :
    APIUtils.getAwsRegion (service.name ++ "." ++ region ++ ".amazonaws.com") =
      String.ofList (region.toList.takeWhile (· ≠ '.')) := by
  have hservice : '.' ∉ service.name.toList := by cases service <;> decide
  have hlist : (service.name ++ "." ++ region ++ ".amazonaws.com").toList =
      service.name.toList ++ '.' :: (region.toList ++ '.' :: "amazonaws.com".toList) := by
    simp
  rw [APIUtils.getAwsRegion, hlist, if_pos (by simp), dropWhile_ne_append hservice, List.drop_one,
    List.tail_cons, takeWhile_ne_append]

theorem awsEndpoint_inj {region region' : String} :
    ICTableEntry.awsEndpoint region = ICTableEntry.awsEndpoint region' ↔ region = region' := by
  unfold ICTableEntry.awsEndpoint
  refine ⟨fun h => ?_, fun h => by rw [h]⟩
  have hlist := congrArg String.toList h
  rw [← String.toList_inj]
  simpa using hlist

theorem ofList_takeWhile_iff (s : String) :
    String.ofList (s.toList.takeWhile (· ≠ '.')) = s ↔ '.' ∉ s.toList := by
  constructor
  · intro h hdot
    have hlist := congrArg String.toList h
    rw [String.toList_ofList, List.takeWhile_eq_self_iff] at hlist
    simpa using hlist _ hdot
  · intro h
    have hlist : s.toList.takeWhile (· ≠ '.') = s.toList := by
      rw [List.takeWhile_eq_self_iff]
      intro c hc
      simp only [ne_eq, decide_not, Bool.not_eq_eq_eq_not, Bool.not_true, decide_eq_false_iff_not]
      rintro rfl
      exact h hc
    rw [hlist, String.ofList_toList]

/-! ### Attached catalogs -/

/-- A catalog of AWS, with the region in its host. -/
structure AttachedRegion (ctx : AttachContext) (catalog : IRCatalogConfig) (service : AwsService)
    (region : String) : Prop where
  service_eq : catalog.awsService = some service
  host_eq : catalog.host = service.name ++ "." ++ region ++ ".amazonaws.com"
  region_eq : catalog.awsRegion ctx = some region
  secret : ∃ secret, catalog.foundSecret ctx = .ok (some secret)

/-- The warehouse of S3 Tables has its region in the fourth part. -/
theorem awsHost_region {catalogType : IcebergCatalogType} {warehouse region : String}
    {host : String × String} (h : awsHost catalogType warehouse region = .ok host) :
    (catalogType = .awsS3Tables ∧ host.1 = "s3tables" ∧
        (warehouseSubstrings warehouse)[3]?.map String.ofList = some host.2) ∨
      catalogType = .awsGlue ∧ host.1 = "glue" ∧ host.2 = region := by
  unfold awsHost at h
  cases catalogType with
  | awsS3Tables =>
    dsimp only at h
    split at h
    · next hparts =>
      cases h
      exact Or.inl ⟨rfl, rfl, by rw [hparts]; rfl⟩
    · cases h
  | awsGlue =>
    obtain ⟨-, -, h⟩ := bind_eq_ok.1 h
    cases h
    exact Or.inr ⟨rfl, rfl, rfl⟩
  | other | invalid => cases h

theorem attachAws_region {ctx : AttachContext} {name warehouse : String} {o : AttachOptions}
    {catalogType : IcebergCatalogType} {catalog : IRCatalogConfig}
    (h : attachAws ctx name warehouse o catalogType = .ok catalog) :
    ∃ service region, AttachedRegion ctx catalog service region := by
  unfold attachAws at h
  obtain ⟨secretEntry, hentry, h⟩ := bind_eq_ok.1 h
  obtain ⟨secret, hsecret, h⟩ := bind_eq_ok.1 h
  cases hregion : NormMap.find? secret "region" with
  | none =>
    rw [hregion] at h
    cases h
  | some region =>
    rw [hregion] at h
    obtain ⟨host, hhost, h⟩ := bind_eq_ok.1 h
    obtain ⟨catalogPrefix, rfl⟩ := getConfig_eq_ok h
    have hfound : (ctx.getSecret o.secretName).map Prod.snd = .ok (some secret) := by
      rw [hentry]
      obtain ⟨_, _ | secret'⟩ := secretEntry
      · cases hsecret
      · cases hsecret
        rfl
    rcases awsHost_region hhost with ⟨rfl, hname, hpart⟩ | ⟨rfl, hname, hpart⟩
    · refine ⟨.s3Tables, host.2, rfl, by rw [hname]; rfl, ?_, secret, hfound⟩
      simp only [IRCatalogConfig.awsRegion, IRCatalogConfig.awsService,
        IRCatalogConfig.foundSecret, hfound, hpart]
    · refine ⟨.glue, host.2, rfl, by rw [hname]; rfl, ?_, secret, hfound⟩
      simp only [IRCatalogConfig.awsRegion, IRCatalogConfig.awsService,
        IRCatalogConfig.foundSecret, hfound, hregion, hpart]

theorem warehouseRegion_eq_ok {warehouse region : String}
    (h : (warehouseSubstrings warehouse)[3]?.map String.ofList = some region) :
    ICTableEntry.warehouseRegion warehouse = .ok region := by
  obtain ⟨part, hpart, rfl⟩ := Option.map_eq_some_iff.1 h
  unfold warehouseSubstrings at hpart
  unfold ICTableEntry.warehouseRegion
  dsimp only at hpart ⊢
  rw [hpart]

/-- The endpoint is that of the region of the catalog. -/
theorem AttachedRegion.awsOptions {ctx : AttachContext} {catalog : IRCatalogConfig}
    {service : AwsService} {region : String} (h : AttachedRegion ctx catalog service region)
    (options : CIMap Value) :
    ∃ out, ICTableEntry.awsOptions catalog (catalog.foundSecret ctx) options = .ok out ∧
      out.find? "endpoint" = some (.varchar (ICTableEntry.awsEndpoint region)) := by
  obtain ⟨secret, hsecret⟩ := h.secret
  have hregion := h.region_eq
  have hscan := (hostTests service (region ++ ".amazonaws.com")).2
  rw [← String.append_assoc, ← h.host_eq] at hscan
  rw [IRCatalogConfig.awsRegion, h.service_eq, hsecret] at hregion
  rw [awsOptions_eq, hscan, hsecret]
  cases service with
  | glue =>
    -- the region of the secret, as at attach
    have hfind : NormMap.find? secret "region" = some region := hregion
    refine ⟨_, rfl, ?_⟩
    rw [NormMap.find?_insert, if_pos rfl, KeyValueSecret.tryGetValue, hfind, Option.getD_some]
  | s3Tables =>
    dsimp only
    rw [warehouseRegion_eq_ok hregion]
    refine ⟨_, rfl, ?_⟩
    -- the endpoint is the last of the options that are set
    simp only [List.foldl_cons, List.foldl_nil]
    rw [NormMap.find?_insert, if_pos rfl]

/-- **The region of a catalog of AWS.**  The requests are signed for the region whose endpoint the tables
are read from exactly when there is no dot in the region it is attached with. -/
theorem oneRegion_iff {ctx : AttachContext} {name : String} {options : List (String × Value)}
    {warehouse : String} {catalog : IRCatalogConfig}
    (h : icebergCatalogAttach ctx name options warehouse = .ok catalog)
    (htype : optionText options "endpoint_type" ≠ "") :
    ∃ service region, AttachedRegion ctx catalog service region ∧
      (OneRegion ctx catalog ↔ '.' ∉ region.toList) := by
  obtain ⟨service, region, hattached⟩ : ∃ service region,
      AttachedRegion ctx catalog service region := by
    unfold icebergCatalogAttach at h
    obtain ⟨o, ho, h⟩ := bind_eq_ok.1 h
    rw [← (attachOptions_eq ho).1] at htype
    split_ifs at h
    · exact attachAws_region h
    · exact attachAws_region h
  have hsigned := getAwsRegion_host service region
  rw [← hattached.host_eq] at hsigned
  refine ⟨service, region, hattached, ?_⟩
  rw [← ofList_takeWhile_iff, ← hsigned]
  constructor
  · intro hone
    -- the two endpoints are looked up in the same options
    obtain ⟨out, hout, hfind⟩ := hone NormMap.empty
    obtain ⟨out', hout', hfind'⟩ := hattached.awsOptions NormMap.empty
    rw [hout] at hout'
    cases hout'
    rw [hfind] at hfind'
    exact awsEndpoint_inj.1 (Value.varchar.inj (Option.some.inj hfind'))
  · intro heq options
    rw [heq]
    exact hattached.awsOptions options

theorem oneRegion_glueCatalog : OneRegion plainServer glueCatalog := by
  have hattach : icebergCatalogAttach plainServer "lake"
      [("type", .varchar "iceberg"), ("endpoint_type", .varchar "GLUE")]
      "123456789012:s3tablescatalog/bucket" = .ok glueCatalog := rfl
  obtain ⟨service, region, hattached, hiff⟩ := oneRegion_iff hattach (by decide)
  obtain rfl : "us-east-1" = region := Option.some.inj hattached.region_eq
  exact hiff.2 (by decide)

end DuckIceberg
