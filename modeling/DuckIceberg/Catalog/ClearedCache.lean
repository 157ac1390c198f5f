import DuckIceberg.Catalog.WholeCatalog

/-!
# Cleared caches

`ClearCache` clears the entries of the catalog and leaves the responses of `SetCachedValue`.  What it
forgets is measured against a catalog that is attached at that moment, which has seen nothing: the
schemas and tables that are returned later are the same, but a response that has not expired is
returned without a request (`forgets_iff`).
-/

namespace DuckIceberg

open Strings

namespace IRCatalog

/-! ### What the cache serves -/

/-- The response that the cache has for a URL at this time. -/
def served (catalog : IRCatalog) (now : ℤ) (url : String) : Option String :=
  (catalog.metadataCache.find? url).bind fun value =>
    if now < value.expiresAt then some value.data else none

theorem hasCachedValue_eq (catalog : IRCatalog) (now : ℤ) (url : String) :
    catalog.hasCachedValue now url = (catalog.served now url).isSome := by
  rw [hasCachedValue, served]
  cases catalog.metadataCache.find? url with
  | none => rfl
  | some value => by_cases h : now < value.expiresAt <;> simp [h]

theorem getCachedValue_eq (catalog : IRCatalog) (now : ℤ) (url : String) :
    catalog.getCachedValue now url = match catalog.served now url with
      | some data => .ok data
      | none => .error ⟨.internal, "Cached value does not exist"⟩ := by
  rw [getCachedValue, served]
  cases catalog.metadataCache.find? url with
  | none => rfl
  | some value => by_cases h : now < value.expiresAt <;> simp [h]

/-- The caches serve the same at these times. -/
def AgreesAt (times : Set ℤ) (catalog catalog' : IRCatalog) : Prop :=
  catalog.config = catalog'.config ∧
    ∀ t ∈ times, ∀ url, catalog.served t url = catalog'.served t url

variable {times : Set ℤ} {catalog catalog' : IRCatalog}

theorem AgreesAt.writing (h : AgreesAt times catalog catalog')
    (write : Option (String × MetadataCacheValue)) :
    AgreesAt times (catalog.writing write) (catalog'.writing write) := by
  refine ⟨by simpa using h.1, fun t ht url => ?_⟩
  cases write with
  | none => exact h.2 t ht url
  | some p =>
    show ((catalog.metadataCache.insert p.1 p.2).find? url).bind _ =
      ((catalog'.metadataCache.insert p.1 p.2).find? url).bind _
    rw [NormMap.find?_insert, NormMap.find?_insert, id_eq, id_eq]
    by_cases heq : p.1 = url
    · rw [if_pos heq, if_pos heq]
    · rw [if_neg heq, if_neg heq]
      exact h.2 t ht url

/-- Nothing is served from the time at which all responses have expired. -/
theorem served_eq_none_iff {now : ℤ} : (∀ t ∈ Set.Ici now, ∀ url, catalog.served t url = none) ↔
    ∀ url value, catalog.metadataCache.find? url = some value → value.expiresAt ≤ now := by
  constructor
  · intro h url value hvalue
    have hnone := h now Set.self_mem_Ici url
    rw [served, hvalue, Option.bind_some] at hnone
    by_contra hlt
    rw [if_pos (not_le.1 hlt)] at hnone
    cases hnone
  · intro h t ht url
    rw [served]
    cases hvalue : catalog.metadataCache.find? url with
    | none => rfl
    | some value =>
      have hexpired := h url value hvalue
      have hle : now ≤ t := ht
      rw [Option.bind_some, if_neg (by omega)]

end IRCatalog

namespace AttachedCatalog

open IRCatalog

variable (ctx : CatalogContext)

/-! ### Catalogs that differ in their caches -/

/-- The catalogs have the same sets, and their caches serve the same at these times. -/
def SameAt (times : Set ℤ) (s t : AttachedCatalog) : Prop :=
  AgreesAt times s.catalog t.catalog ∧ s.schemas = t.schemas ∧ s.defaultSchema = t.defaultSchema

variable {ctx} {times : Set ℤ} {s t : AttachedCatalog}

/-- A call that does not read the clock answers the same. -/
theorem SameAt.perform_entries (h : SameAt times s t) {call : Call} (hcall : call.times = []) :
    (s.perform ctx call).1 = (t.perform ctx call).1 ∧
      SameAt times (s.perform ctx call).2 (t.perform ctx call).2 := by
  obtain ⟨hagrees, hschemas, hdefault⟩ := h
  obtain ⟨answer, schemas', write, -, hperform⟩ :=
    perform_writes ctx s.catalog.config s.schemas s.defaultSchema hcall
  have hs : s.perform ctx call = (answer, ⟨s.catalog.writing write, schemas', s.defaultSchema⟩) :=
    hperform s.catalog rfl
  have ht : t.perform ctx call = (answer, ⟨t.catalog.writing write, schemas', s.defaultSchema⟩) := by
    rw [← hperform t.catalog hagrees.1.symm, hschemas, hdefault]
  rw [hs, ht]
  exact ⟨rfl, hagrees.writing write, rfl, rfl⟩

/-- So does a lookup that reads the clock at these times. -/
theorem SameAt.perform_lookup (h : SameAt times s t) (server : String → Except Error String)
    {now later : ℤ} (hnow : now ∈ times) (hlater : later ∈ times) (schema table : String) :
    (s.perform ctx (.getTableMetadataCached server now later schema table)).1 =
        (t.perform ctx (.getTableMetadataCached server now later schema table)).1 ∧
      SameAt times (s.perform ctx (.getTableMetadataCached server now later schema table)).2
        (t.perform ctx (.getTableMetadataCached server now later schema table)).2 := by
  obtain ⟨hagrees, hschemas, hdefault⟩ := h
  simp only [perform, getTableMetadataCached, hasCachedValue_eq, getCachedValue_eq, ← hagrees.1,
    hagrees.2 now hnow, hagrees.2 later hlater]
  by_cases hhit : (t.catalog.served now
      (s.catalog.config.tableURL ctx.urlEncode schema table)).isSome = true
  · simp only [if_pos hhit]
    exact ⟨trivial, hagrees, hschemas, hdefault⟩
  · simp only [if_neg hhit]
    obtain ⟨result, write, -, hfetch⟩ := getTableMetadata_writes ctx s.catalog.config schema table
      (server (s.catalog.config.tableURL ctx.urlEncode schema table))
    dsimp only at hfetch
    rw [hfetch s.catalog rfl, hfetch t.catalog hagrees.1.symm]
    exact ⟨rfl, hagrees.writing write, hschemas, hdefault⟩

/-- **One call**, on catalogs whose caches serve the same when it reads the clock. -/
theorem SameAt.perform (h : SameAt times s t) {call : Call} (hcall : ∀ r ∈ call.times, r ∈ times) :
    (s.perform ctx call).1 = (t.perform ctx call).1 ∧
      SameAt times (s.perform ctx call).2 (t.perform ctx call).2 := by
  cases call with
  | getTableMetadataCached server now later schema table =>
    exact h.perform_lookup server (hcall now (by simp [Call.times]))
      (hcall later (by simp [Call.times])) schema table
  | getSchema | scanSchemas | getEntry | scan | clearCache => exact h.perform_entries rfl

/-- The sets stay the same, whatever the caches serve. -/
theorem SameAt.perform_sets (h : SameAt ∅ s t) (call : Call) :
    SameAt ∅ (s.perform ctx call).2 (t.perform ctx call).2 := by
  by_cases htimes : call.times = []
  · exact (h.perform_entries htimes).2
  · cases call with
    | getTableMetadataCached server now later schema table =>
      obtain ⟨write, -, hs⟩ := lookup_writes ctx s server now later schema table
      obtain ⟨write', -, ht⟩ := lookup_writes ctx t server now later schema table
      rw [hs, ht]
      exact ⟨⟨by simpa using h.1.1, nofun⟩, h.2⟩
    | getSchema | scanSchemas | getEntry | scan | clearCache => exact absurd rfl htimes

theorem SameAt.performAll_sets (h : SameAt ∅ s t) (calls : List Call) :
    SameAt ∅ (s.performAll ctx calls) (t.performAll ctx calls) := by
  induction calls using List.reverseRecOn with
  | nil => exact h
  | append_singleton calls call ih =>
    rw [performAll_concat, performAll_concat]
    exact ih.perform_sets call

/-- **A run** of calls that read the clock at these times gets the same answers. -/
theorem SameAt.answers_eq (h : SameAt times s t) {calls : List Call}
    (hcalls : ∀ call ∈ calls, ∀ r ∈ call.times, r ∈ times) :
    s.answers ctx calls = t.answers ctx calls := by
  induction calls generalizing s t with
  | nil => rfl
  | cons call calls ih =>
    obtain ⟨hanswer, hnext⟩ : (s.perform ctx call).1 = (t.perform ctx call).1 ∧
        SameAt times (s.perform ctx call).2 (t.perform ctx call).2 :=
      h.perform (hcalls call List.mem_cons_self)
    rw [answers, answers, hanswer, ih hnext fun c hc => hcalls c (List.mem_cons_of_mem _ hc)]

/-- A lookup requests what the cache does not have. -/
theorem requests_lookup (s : AttachedCatalog) (server : String → Except Error String)
    (now later : ℤ) (schema table : String) :
    (s.perform ctx (.getTableMetadataCached server now later schema table)).1.requests =
      if s.catalog.hasCachedValue now (s.catalog.config.tableURL ctx.urlEncode schema table) then []
      else [s.catalog.config.tableURL ctx.urlEncode schema table] := rfl

/-! ### After `ClearCache` -/

/-- The catalog, attached anew.  Its entries are made at addresses that no entry of this catalog
had. -/
def reattached (s : AttachedCatalog) : AttachedCatalog where
  catalog := { config := s.catalog.config }
  schemas := { nextAddress := s.schemas.nextAddress }
  defaultSchema := s.defaultSchema

/-- Nothing that was fetched before `ClearCache` is returned from this time on: every run of calls gets
the answers, and makes the requests, of a catalog that was attached then. -/
def Forgets (ctx : CatalogContext) (s : AttachedCatalog) (now : ℤ) : Prop :=
  ∀ calls : List Call, (∀ call ∈ calls, ∀ t ∈ call.times, now ≤ t) →
    s.clearCache.answers ctx calls = s.reattached.answers ctx calls

/-- No schema and no table that was fetched before `ClearCache` is returned later. -/
def ForgetsEntries (ctx : CatalogContext) (s : AttachedCatalog) : Prop :=
  ∀ (before : List Call) (call : Call), call.times = [] →
    ((s.clearCache.performAll ctx before).perform ctx call).1 =
      ((s.reattached.performAll ctx before).perform ctx call).1

theorem sameAt_reattached (s : AttachedCatalog)
    (h : ∀ t ∈ times, ∀ url, s.catalog.served t url = none) :
    SameAt times s.clearCache s.reattached :=
  ⟨⟨rfl, h⟩, rfl, rfl⟩

/-- **`ClearCache`**, after any run, forgets all entries, and forgets all that was fetched exactly when
every response in the cache has expired. -/
theorem forgets_iff (ctx : CatalogContext) (config : IRCatalogConfig) (defaultSchema : String)
    (calls : List Call) (now : ℤ) :
    let s := performAll ctx ⟨{ config }, {}, defaultSchema⟩ calls
    s.ForgetsEntries ctx ∧
      (s.Forgets ctx now ↔ ∀ url value, s.catalog.metadataCache.find? url = some value →
        value.expiresAt ≤ now) := by
  intro s
  refine ⟨fun before call hcall => ?_, fun h => ?_, fun h later hlater => ?_⟩
  · have hsame := sameAt_reattached s fun t ht => absurd ht (Set.notMem_empty t)
    exact ((hsame.performAll_sets before).perform_entries hcall).1
  · by_contra hserved
    push Not at hserved
    obtain ⟨url, value, hvalue, hlt⟩ := hserved
    obtain ⟨schema, table, hurl⟩ := performAll_cached ctx rfl calls url value hvalue
    -- a table whose response is cached is looked up
    have hanswers := h [.getTableMetadataCached (fun _ => .ok "") now now schema table]
      (by simp [Call.times])
    have hrequests := congrArg Answer.requests (List.cons.inj hanswers).1
    rw [requests_lookup, requests_lookup] at hrequests
    have hhit : s.clearCache.catalog.hasCachedValue now
        (s.catalog.config.tableURL ctx.urlEncode schema table) = true := by
      show s.catalog.hasCachedValue now _ = true
      rw [← hurl, hasCachedValue, hvalue]
      exact decide_eq_true hlt
    have hmiss : ¬ s.reattached.catalog.hasCachedValue now
        (s.catalog.config.tableURL ctx.urlEncode schema table) = true := Bool.false_ne_true
    have hnil : [] = [s.catalog.config.tableURL ctx.urlEncode schema table] :=
      (if_pos hhit).symm.trans (hrequests.trans (if_neg hmiss))
    cases hnil
  · exact (sameAt_reattached s (served_eq_none_iff.2 h)).answers_eq hlater

/-- A response that has not expired is returned after `ClearCache`, when the server is gone. -/
theorem not_forgets_expiring :
    ¬ Forgets session
      (performAll session ⟨emptyCatalog, {}, ""⟩
        [.getTableMetadataCached (fun _ => .ok expiringResponse) 0 0 "s" "t"]) 1 := by
  intro h
  have hanswers := h [.getTableMetadataCached (fun _ => .error ⟨.io, "no connection"⟩) 1 1 "s" "t"]
    (by simp [Call.times])
  have hrequests := congrArg Answer.requests (List.cons.inj hanswers).1
  revert hrequests
  decide +kernel

end AttachedCatalog

end DuckIceberg
