import DuckIceberg.Catalog.CatalogUtils
import DuckIceberg.Catalog.EndpointBuilder

/-!
# The metadata cache

`GetTableMetadata` fetches the metadata of a table and offers the response to the cache;
`GetTableMetadataCached` looks there first.  A response is kept only if it says when its credentials
expire.

* `Fresh`: what is in the cache is the response fetched last, or has expired;
* `exec_fresh`: a request keeps this, unless it fetches a response that is not kept while an older
  one is still served;
* `lookups_latest`: so no run of other requests returns a superseded response;
* `survives_iff`: a lookup fails when its entry expires between the two readings of the clock.
-/

namespace DuckIceberg

open Strings Json IcebergUtils

/-! ### The catalog -/

/-- `unordered_map<string, T>` -/
abbrev UnorderedMap (β : Type*) := NormMap (id : String → String) β

/-- `MetadataCacheValue`; a point in time is its number of nanoseconds since the epoch. -/
structure MetadataCacheValue where
  data : String
  expiresAt : ℤ
  deriving DecidableEq, Repr

/-- `IRCatalog` with its cache. -/
structure IRCatalog where
  config : IRCatalogConfig
  metadataCache : UnorderedMap MetadataCacheValue := .empty

/-- `std::stoll` -/
def stoll (s : String) : Except Error ℤ :=
  match leadingInt s.toList with
  | none => .error ⟨.invalidArgument, "stoll"⟩
  | some n =>
    if -(2 ^ 63) ≤ n ∧ n < 2 ^ 63 then .ok n else .error ⟨.outOfRange, "stoll"⟩

/-- `std::chrono::system_clock::time_point` of a number of milliseconds -/
def timePoint (millis : ℤ) : Except Error ℤ :=
  if -(2 ^ 63) ≤ millis * 1000000 ∧ millis * 1000000 < 2 ^ 63 then .ok (millis * 1000000)
  else .error ⟨.undefined, "a time point overflows"⟩

namespace IRCatalog

/-- When `SetCachedValue` finds that a response expires.  It is not kept when this is `none`. -/
def expiry (ctx : CatalogContext) (value : String) : Except Error (Option ℤ) := do
  let root ← apiResultToDoc ctx value
  let credentials := objGet root "config"
  if credentials.isSome ∧ 0 < objSize credentials then
    let expiresAt := tryGetStrOrEmpty credentials "s3.session-token-expires-at-ms"
    if expiresAt = "" then return none
    else
      let epochMillis ← stoll expiresAt
      let expiredTime ← timePoint epochMillis
      return some expiredTime
  else return none

/-- `SetCachedValue` -/
def setCachedValue (ctx : CatalogContext) (catalog : IRCatalog) (url value : String) :
    Except Error Unit × IRCatalog :=
  match expiry ctx value with
  | .error e => (.error e, catalog)
  | .ok none => (.ok (), catalog)
  | .ok (some expiredTime) =>
    (.ok (), { catalog with
      metadataCache := catalog.metadataCache.insert url ⟨value, expiredTime⟩ })

/-- `HasCachedValue` at the time `now` -/
def hasCachedValue (catalog : IRCatalog) (now : ℤ) (url : String) : Bool :=
  match catalog.metadataCache.find? url with
  | some value => now < value.expiresAt
  | none => false

/-- `GetCachedValue` at the time `now` -/
def getCachedValue (catalog : IRCatalog) (now : ℤ) (url : String) : Except Error String :=
  match catalog.metadataCache.find? url with
  | some value =>
    if now < value.expiresAt then .ok value.data
    else .error ⟨.internal, "Cached value does not exist"⟩
  | none => .error ⟨.internal, "Cached value does not exist"⟩

/-- `GetTableMetadata`, when the server answers the request with `response` -/
def getTableMetadata (ctx : CatalogContext) (catalog : IRCatalog) (schema table : String)
    (response : Except Error String) : Except Error String × IRCatalog :=
  match response with
  | .error e => (.error e, catalog)
  | .ok apiResult =>
    match catalog.setCachedValue ctx (catalog.config.tableURL ctx.urlEncode schema table)
      apiResult with
    | (.error e, catalog) => (.error e, catalog)
    | (.ok _, catalog) => (.ok apiResult, catalog)

/-- `GetTableMetadataCached`, when the clock shows `now` as it looks for the entry and `later` as it
takes it -/
def getTableMetadataCached (ctx : CatalogContext) (catalog : IRCatalog) (now later : ℤ)
    (schema table : String) (response : Except Error String) : Except Error String × IRCatalog :=
  let url := catalog.config.tableURL ctx.urlEncode schema table
  if catalog.hasCachedValue now url then (catalog.getCachedValue later url, catalog)
  else catalog.getTableMetadata ctx schema table response

/-! ### Runs -/

/-- A request for the metadata of a table: what the server would answer, and the times at which the
clock is read. -/
inductive Request
  | fetch (now : ℤ) (schema table : String) (response : Except Error String)
  | lookup (now later : ℤ) (schema table : String) (response : Except Error String)

namespace Request

/-- The readings of the clock. -/
def times : Request → List ℤ
  | .fetch now .. => [now]
  | .lookup now later .. => [now, later]

/-- The URL that is asked for. -/
def url (ctx : CatalogContext) (catalog : IRCatalog) : Request → String
  | .fetch _ schema table _ => catalog.config.tableURL ctx.urlEncode schema table
  | .lookup _ _ schema table _ => catalog.config.tableURL ctx.urlEncode schema table

end Request

variable (ctx : CatalogContext)

/-- Execute a request. -/
def exec (catalog : IRCatalog) : Request → Except Error String × IRCatalog
  | .fetch _ schema table response => catalog.getTableMetadata ctx schema table response
  | .lookup now later schema table response =>
    catalog.getTableMetadataCached ctx now later schema table response

/-- The response that a request fetches from the server and returns, if it does, under its URL. -/
def fetched (catalog : IRCatalog) (r : Request) : List (String × String) :=
  match r with
  | .fetch .. => ((catalog.exec ctx r).1.toOption.map fun text => (r.url ctx catalog, text)).toList
  | .lookup now .. =>
    if catalog.hasCachedValue now (r.url ctx catalog) then []
    else ((catalog.exec ctx r).1.toOption.map fun text => (r.url ctx catalog, text)).toList

/-- The catalog after these requests. -/
def execAll (catalog : IRCatalog) (requests : List Request) : IRCatalog :=
  requests.foldl (fun catalog r => (catalog.exec ctx r).2) catalog

/-- The responses that were fetched. -/
def history : IRCatalog → List Request → List (String × String)
  | _, [] => []
  | catalog, r :: rs => catalog.fetched ctx r ++ history (catalog.exec ctx r).2 rs

/-- The response fetched last for a URL. -/
def lastFetched (url : String) (responses : List (String × String)) : Option String :=
  ((responses.filter (·.1 = url)).getLast?).map Prod.snd

theorem execAll_snoc (catalog : IRCatalog) (rs : List Request) (r : Request) :
    catalog.execAll ctx (rs ++ [r]) = ((catalog.execAll ctx rs).exec ctx r).2 := by
  rw [execAll, List.foldl_append]
  rfl

theorem history_snoc (catalog : IRCatalog) (rs : List Request) (r : Request) :
    catalog.history ctx (rs ++ [r]) =
      catalog.history ctx rs ++ (catalog.execAll ctx rs).fetched ctx r := by
  induction rs generalizing catalog with
  | nil => simp [history, execAll]
  | cons r' rs ih =>
    rw [List.cons_append, history, ih, history, List.append_assoc]
    rfl

theorem lastFetched_append_of_ne {url url' response : String} (responses : List (String × String))
    (h : url' ≠ url) : lastFetched url (responses ++ [(url', response)]) =
      lastFetched url responses := by
  rw [lastFetched, List.filter_append, List.filter_cons_of_neg (by simpa using h),
    List.filter_nil, List.append_nil, lastFetched]

theorem lastFetched_append_self (url response : String) (responses : List (String × String)) :
    lastFetched url (responses ++ [(url, response)]) = some response := by
  rw [lastFetched, List.filter_append, List.filter_cons_of_pos (by simp), List.filter_nil,
    List.getLast?_concat]
  rfl

/-! ### What is in the cache -/

/-- Each entry of the cache is the response fetched last for its URL, or it had expired at one of
these times. -/
def Fresh (catalog : IRCatalog) (responses : List (String × String)) (times : List ℤ) : Prop :=
  ∀ url value, catalog.metadataCache.find? url = some value →
    lastFetched url responses = some value.data ∨ ∃ t ∈ times, value.expiresAt ≤ t

theorem Fresh.mono {catalog : IRCatalog} {responses : List (String × String)} {times : List ℤ}
    (h : Fresh catalog responses times) (times' : List ℤ) :
    Fresh catalog responses (times ++ times') := by
  intro url value hvalue
  rcases h url value hvalue with hlast | ⟨t, ht, hle⟩
  · exact Or.inl hlast
  · exact Or.inr ⟨t, List.mem_append_left _ ht, hle⟩

/-- The request does not return a response that is not kept while an older one is still served: where
a response that was fetched without looking in the cache does not say when it expires, the entry for
its URL has expired. -/
def Supersedes (catalog : IRCatalog) : Request → Prop
  | .fetch now schema table (.ok response) =>
    expiry ctx response = .ok none →
      ∀ value, catalog.metadataCache.find? (catalog.config.tableURL ctx.urlEncode schema table) =
        some value → value.expiresAt ≤ now
  | _ => True

variable {ctx}

/-- What `GetTableMetadata` returns is now the response fetched last; it is in the cache, or the entry
for its URL must have expired. -/
theorem getTableMetadata_fresh {catalog : IRCatalog} {responses : List (String × String)}
    {times : List ℤ} (h : Fresh catalog responses times) (schema table : String)
    (response : Except Error String)
    (hentry : ∀ text, response = .ok text → expiry ctx text = .ok none → ∀ value,
      catalog.metadataCache.find? (catalog.config.tableURL ctx.urlEncode schema table) =
        some value → ∃ t ∈ times, value.expiresAt ≤ t) :
    Fresh (catalog.getTableMetadata ctx schema table response).2
      (responses ++ ((catalog.getTableMetadata ctx schema table response).1.toOption.map
        fun text => (catalog.config.tableURL ctx.urlEncode schema table, text)).toList) times := by
  set url := catalog.config.tableURL ctx.urlEncode schema table with hurl
  cases response with
  | error e =>
    simpa only [getTableMetadata, Except.toOption, Option.map_none, Option.toList_none,
      List.append_nil] using h
  | ok text =>
    rcases hexp : expiry ctx text with e | _ | t
    · -- `SetCachedValue` throws, and leaves the cache as it was
      simpa only [getTableMetadata, setCachedValue, hexp, Except.toOption, Option.map_none,
        Option.toList_none, List.append_nil] using h
    · simp only [getTableMetadata, setCachedValue, hexp, Except.toOption, Option.map_some,
        Option.toList_some]
      intro url' value hvalue
      by_cases heq : url = url'
      · subst heq
        exact Or.inr (hentry text rfl hexp value hvalue)
      · rw [lastFetched_append_of_ne _ heq]
        exact h url' value hvalue
    · simp only [getTableMetadata, setCachedValue, hexp, Except.toOption, Option.map_some,
        Option.toList_some, ← hurl]
      intro url' value hvalue
      simp only [NormMap.find?_insert, id_eq] at hvalue
      by_cases heq : url = url'
      · rw [if_pos heq] at hvalue
        cases hvalue
        subst heq
        exact Or.inl (lastFetched_append_self url text responses)
      · rw [if_neg heq] at hvalue
        rw [lastFetched_append_of_ne _ heq]
        exact h url' value hvalue

/-- What `GetTableMetadata` returns does not depend on the catalog. -/
theorem getTableMetadata_congr (catalog catalog' : IRCatalog) (schema table : String)
    (response : Except Error String) :
    (catalog'.getTableMetadata ctx schema table response).1 =
      (catalog.getTableMetadata ctx schema table response).1 := by
  unfold getTableMetadata setCachedValue
  cases response with
  | error e => rfl
  | ok response => rcases hexp : expiry ctx response with e | _ | t <;> simp only [hexp]

/-- A lookup takes the entry of the cache, and fetches nothing. -/
theorem exec_lookup_hit {catalog : IRCatalog} {now : ℤ} (later : ℤ) {schema table : String}
    (response : Except Error String)
    (hhit : catalog.hasCachedValue now (catalog.config.tableURL ctx.urlEncode schema table) = true) :
    catalog.exec ctx (.lookup now later schema table response) =
        (catalog.getCachedValue later (catalog.config.tableURL ctx.urlEncode schema table),
          catalog) ∧
      catalog.fetched ctx (.lookup now later schema table response) = [] := by
  constructor
  · rw [exec, getTableMetadataCached]
    simp only [if_pos hhit]
  · rw [fetched]
    exact if_pos hhit

/-- A lookup that finds no entry fetches the metadata. -/
theorem exec_lookup_miss {catalog : IRCatalog} {now : ℤ} (later : ℤ) {schema table : String}
    (response : Except Error String)
    (hmiss : ¬ catalog.hasCachedValue now
      (catalog.config.tableURL ctx.urlEncode schema table) = true) :
    catalog.exec ctx (.lookup now later schema table response) =
        catalog.getTableMetadata ctx schema table response ∧
      catalog.fetched ctx (.lookup now later schema table response) =
        ((catalog.getTableMetadata ctx schema table response).1.toOption.map
          fun text => (catalog.config.tableURL ctx.urlEncode schema table, text)).toList := by
  have hexec : catalog.exec ctx (.lookup now later schema table response) =
      catalog.getTableMetadata ctx schema table response := by
    rw [exec, getTableMetadataCached]
    simp only [if_neg hmiss]
  refine ⟨hexec, ?_⟩
  rw [fetched, hexec]
  exact if_neg hmiss

/-- **A request** keeps the cache fresh. -/
theorem exec_fresh {catalog : IRCatalog} {responses : List (String × String)} {times : List ℤ}
    (h : Fresh catalog responses times) (r : Request) (hr : Supersedes ctx catalog r) :
    Fresh (catalog.exec ctx r).2 (responses ++ catalog.fetched ctx r) (times ++ r.times) := by
  have hmono := h.mono r.times
  cases r with
  | fetch now schema table response =>
    refine getTableMetadata_fresh hmono schema table response ?_
    rintro text rfl hexp value hvalue
    exact ⟨now, List.mem_append_right _ List.mem_cons_self, hr hexp value hvalue⟩
  | lookup now later schema table response =>
    by_cases hhit : catalog.hasCachedValue now
        (catalog.config.tableURL ctx.urlEncode schema table) = true
    · obtain ⟨hexec, hfetched⟩ := exec_lookup_hit later response hhit
      rw [hexec, hfetched, List.append_nil]
      exact hmono
    · obtain ⟨hexec, hfetched⟩ := exec_lookup_miss later response hhit
      rw [hexec, hfetched]
      -- what is not found there is missing or has expired
      refine getTableMetadata_fresh hmono schema table response fun _ _ _ value hvalue => ?_
      refine ⟨now, List.mem_append_right _ List.mem_cons_self, ?_⟩
      simpa [hasCachedValue, hvalue] using hhit

/-- In a run whose requests all supersede what they replace, the cache stays fresh. -/
theorem execAll_fresh {catalog : IRCatalog} (hempty : catalog.metadataCache = .empty)
    (rs : List Request)
    (h : ∀ pre r post, rs = pre ++ r :: post → Supersedes ctx (catalog.execAll ctx pre) r) :
    Fresh (catalog.execAll ctx rs) (catalog.history ctx rs) (rs.flatMap Request.times) := by
  induction rs using List.reverseRecOn with
  | nil =>
    intro url value hvalue
    change catalog.metadataCache.find? url = some value at hvalue
    rw [hempty] at hvalue
    cases hvalue
  | append_singleton rs r ih =>
    have hrs := ih fun pre r' post heq => h pre r' (post ++ [r]) (by rw [heq]; simp)
    rw [execAll_snoc, history_snoc, List.flatMap_append, List.flatMap_singleton]
    exact exec_fresh hrs r (h rs r [] rfl)

/-- Every text that a lookup returns in this run is the response fetched last for its URL, and if it
was in the cache, it has not expired. -/
def NeverSuperseded (ctx : CatalogContext) (catalog : IRCatalog) (rs : List Request) : Prop :=
  ∀ pre now later schema table response post,
    rs = pre ++ .lookup now later schema table response :: post → ∀ text,
    ((catalog.execAll ctx pre).exec ctx (.lookup now later schema table response)).1 = .ok text →
    lastFetched (catalog.config.tableURL ctx.urlEncode schema table)
        (catalog.history ctx (pre ++ [.lookup now later schema table response])) = some text ∧
      ((catalog.execAll ctx pre).fetched ctx (.lookup now later schema table response) = [] →
        ∃ value, (catalog.execAll ctx pre).metadataCache.find?
          (catalog.config.tableURL ctx.urlEncode schema table) = some value ∧
          value.data = text ∧ later < value.expiresAt)

theorem getTableMetadata_config (catalog : IRCatalog) (schema table : String)
    (response : Except Error String) :
    (catalog.getTableMetadata ctx schema table response).2.config = catalog.config := by
  unfold getTableMetadata setCachedValue
  cases response with
  | error e => rfl
  | ok response => rcases hexp : expiry ctx response with e | _ | t <;> simp only [hexp]

theorem execAll_config (catalog : IRCatalog) (rs : List Request) :
    (catalog.execAll ctx rs).config = catalog.config := by
  induction rs using List.reverseRecOn with
  | nil => rfl
  | append_singleton rs r ih =>
    rw [execAll_snoc, ← ih]
    cases r with
    | fetch now schema table response => exact getTableMetadata_config _ _ _ _
    | lookup now later schema table response =>
      simp only [exec, getTableMetadataCached]
      split_ifs
      · rfl
      · exact getTableMetadata_config _ _ _ _

/-- **The metadata cache** never serves a superseded response, in a run in which every response that is
fetched without looking in the cache is kept, or finds no entry for its URL that has not expired. -/
theorem lookups_latest {catalog : IRCatalog} (hempty : catalog.metadataCache = .empty)
    (rs : List Request) (hclock : (rs.flatMap Request.times).Pairwise (· ≤ ·))
    (h : ∀ pre r post, rs = pre ++ r :: post → Supersedes ctx (catalog.execAll ctx pre) r) :
    NeverSuperseded ctx catalog rs := by
  intro pre now later schema table response post heq text htext
  have hfresh := execAll_fresh hempty pre fun pre' r post' heq' =>
    h pre' r (post' ++ .lookup now later schema table response :: post) (by rw [heq, heq']; simp)
  rw [history_snoc]
  set c := catalog.execAll ctx pre with hc
  have hconfig : c.config = catalog.config := execAll_config catalog pre
  rw [← hconfig]
  set url := c.config.tableURL ctx.urlEncode schema table with hurl
  by_cases hhit : c.hasCachedValue now url = true
  · obtain ⟨hexec, hfetched⟩ := exec_lookup_hit later response hhit
    rw [hfetched, List.append_nil]
    rw [hexec, ← hurl] at htext
    cases hvalue : c.metadataCache.find? url with
    | none => simp [hasCachedValue, hvalue] at hhit
    | some value =>
      simp only [getCachedValue, hvalue] at htext
      split_ifs at htext with hlater
      cases htext
      refine ⟨?_, fun _ => ⟨value, rfl, rfl, hlater⟩⟩
      rcases hfresh url value hvalue with hlast | ⟨t, ht, hle⟩
      · exact hlast
      · -- an entry that had expired before is not found
        exfalso
        have hnow : now < value.expiresAt := by simpa [hasCachedValue, hvalue] using hhit
        rw [heq, List.flatMap_append, List.pairwise_append] at hclock
        have hle' := hclock.2.2 t ht now
          (by rw [List.flatMap_cons]; exact List.mem_append_left _ List.mem_cons_self)
        omega
  · obtain ⟨hexec, hfetched⟩ := exec_lookup_miss later response hhit
    rw [hexec] at htext
    rw [hfetched, ← hurl, htext]
    exact ⟨lastFetched_append_self _ _ _, fun h => by cases h⟩

/-! ### A session -/

/-- The response of a server that says when its credentials expire, ten seconds after the epoch. -/
def expiringResponse : String :=
  "\x7b\"config\": \x7b\"s3.session-token-expires-at-ms\": \"10000\"\x7d\x7d"

/-- A response without credentials. -/
def plainResponse : String := "\x7b\x7d"

/-- A session that reads these responses. -/
def session : CatalogContext where
  urlEncode := id
  yyjsonRead text :=
    if text = expiringResponse then
      some (.obj [("config", .obj [("s3.session-token-expires-at-ms", .str "10000")])])
    else if text = plainResponse then some (.obj [])
    else none
  castUInt8 := readUInt8

/-- A catalog with an empty cache. -/
def emptyCatalog : IRCatalog := { config := IRCatalogConfig.polaris }

/-- A response is replaced once it has expired, by one that is not kept. -/
theorem lookups_latest_expired : NeverSuperseded session emptyCatalog
    [.fetch 0 "s" "t" (.ok expiringResponse), .lookup 1 2 "s" "t" (.ok plainResponse),
      .fetch 20000000000 "s" "t" (.ok plainResponse),
      .lookup 20000000001 20000000002 "s" "t" (.ok plainResponse)] := by
  refine lookups_latest rfl _ (by decide) fun pre r post heq => ?_
  rcases pre with _ | ⟨r0, _ | ⟨r1, _ | ⟨r2, pre⟩⟩⟩
  all_goals simp only [List.cons_append, List.nil_append, List.cons.injEq] at heq
  · obtain ⟨rfl, -⟩ := heq
    -- this response is kept
    have hkept : expiry session expiringResponse ≠ .ok none := by decide +kernel
    exact fun hnone => absurd hnone hkept
  · obtain ⟨-, rfl, -⟩ := heq
    trivial
  · obtain ⟨rfl, rfl, rfl, -⟩ := heq
    -- this one is not, but the entry has expired
    intro _ value hvalue
    have hentry : (emptyCatalog.execAll session [.fetch 0 "s" "t" (.ok expiringResponse),
        .lookup 1 2 "s" "t" (.ok plainResponse)]).metadataCache.find?
          (emptyCatalog.config.tableURL session.urlEncode "s" "t") =
        some ⟨expiringResponse, 10000000000⟩ := by decide +kernel
    have hsame : some value = some ⟨expiringResponse, 10000000000⟩ := hvalue.symm.trans hentry
    cases hsame
    decide
  · obtain ⟨-, -, -, heq⟩ := heq
    rcases pre with _ | ⟨r3, pre⟩
    · obtain ⟨rfl, -⟩ := List.cons.inj heq
      trivial
    · simp at heq

/-- A response that is not kept does not replace the one in the cache. -/
theorem not_neverSuperseded_plain : ¬ NeverSuperseded session emptyCatalog
    [.fetch 0 "s" "t" (.ok expiringResponse), .fetch 1 "s" "t" (.ok plainResponse),
      .lookup 2 3 "s" "t" (.ok plainResponse)] := by
  intro h
  have hlatest := (h [.fetch 0 "s" "t" (.ok expiringResponse), .fetch 1 "s" "t" (.ok plainResponse)]
    2 3 "s" "t" (.ok plainResponse) [] rfl expiringResponse (by decide +kernel)).1
  revert hlatest
  decide +kernel

/-! ### Entries that expire during a lookup -/

/-- What `GetCachedValue` throws. -/
def missingValue : Error := ⟨.internal, "Cached value does not exist"⟩

theorem invalidField_type {obj : Option Json} {field : String} {e : Error}
    (h : tryGetStrFromObject obj field = .error e) : e.type ≠ .internal := by
  unfold tryGetStrFromObject at h
  split at h
  · cases h
  · cases h
    exact nofun

theorem apiResultToDoc_type {text : String} {e : Error} (h : apiResultToDoc ctx text = .error e) :
    e.type ≠ .internal := by
  unfold apiResultToDoc at h
  dsimp only at h
  split at h
  · split at h
    · cases h
      exact nofun
    · rename_i hmessage
      cases h
      exact invalidField_type hmessage
  · cases h

/-- To look for the time at which a response expires is no internal error. -/
theorem expiry_type {text : String} {e : Error} (h : expiry ctx text = .error e) :
    e.type ≠ .internal := by
  unfold expiry at h
  rcases bind_eq_error.1 h with hdoc | ⟨root, -, h⟩
  · exact apiResultToDoc_type hdoc
  dsimp only at h
  split_ifs at h
  · cases h
  · rcases bind_eq_error.1 h with hstoll | ⟨millis, -, h⟩
    · unfold stoll at hstoll
      split at hstoll
      · cases hstoll
        exact nofun
      · split_ifs at hstoll
        cases hstoll
        exact nofun
    · rcases bind_eq_error.1 h with htime | ⟨time, -, h⟩
      · unfold timePoint at htime
        split_ifs at htime
        cases htime
        exact nofun
      · cases h
  · cases h

/-- A request fails with this exception only when the server's answer does. -/
theorem getTableMetadata_missing {catalog : IRCatalog} {schema table : String}
    {response : Except Error String}
    (h : (catalog.getTableMetadata ctx schema table response).1 = .error missingValue) :
    response = .error missingValue := by
  cases response with
  | error e => exact h
  | ok text =>
    exfalso
    rcases hexp : expiry ctx text with e | _ | t
    · simp only [getTableMetadata, setCachedValue, hexp] at h
      cases h
      exact expiry_type hexp rfl
    · simp only [getTableMetadata, setCachedValue, hexp] at h
      cases h
    · simp only [getTableMetadata, setCachedValue, hexp] at h
      cases h

/-- A lookup survives these readings of the clock: whatever the server answers, it returns an entry of
the cache that had not expired at one of them, or does what a request for the metadata does, and does
not fail for want of an entry. -/
def Survives (ctx : CatalogContext) (catalog : IRCatalog) (now later : ℤ) (schema table : String) :
    Prop :=
  ∀ response,
    ((∃ value, catalog.metadataCache.find? (catalog.config.tableURL ctx.urlEncode schema table) =
          some value ∧ (now < value.expiresAt ∨ later < value.expiresAt) ∧
          catalog.getTableMetadataCached ctx now later schema table response =
            (.ok value.data, catalog)) ∨
        catalog.getTableMetadataCached ctx now later schema table response =
          catalog.getTableMetadata ctx schema table response) ∧
      ((catalog.getTableMetadataCached ctx now later schema table response).1 =
        .error missingValue → response = .error missingValue)

/-- **A lookup survives** unless its entry expires after it was found and before it is taken. -/
theorem survives_iff (ctx : CatalogContext) (catalog : IRCatalog) (now later : ℤ)
    (schema table : String) : Survives ctx catalog now later schema table ↔
      ¬ ∃ value, catalog.metadataCache.find?
        (catalog.config.tableURL ctx.urlEncode schema table) = some value ∧
          now < value.expiresAt ∧ value.expiresAt ≤ later := by
  constructor
  · rintro h ⟨value, hvalue, hnow, hlater⟩
    have hthrows : catalog.getTableMetadataCached ctx now later schema table (.ok "") =
        (.error missingValue, catalog) := by
      have hle : ¬ later < value.expiresAt := by omega
      simp only [getTableMetadataCached, hasCachedValue, getCachedValue, hvalue, hnow, hle,
        decide_true, if_true, if_false]
      rfl
    have hresponse := (h (.ok "")).2 (by rw [hthrows])
    cases hresponse
  · intro h response
    by_cases hhit : catalog.hasCachedValue now
        (catalog.config.tableURL ctx.urlEncode schema table) = true
    · cases hvalue : catalog.metadataCache.find?
          (catalog.config.tableURL ctx.urlEncode schema table) with
      | none => simp [hasCachedValue, hvalue] at hhit
      | some value =>
        have hnow : now < value.expiresAt := by simpa [hasCachedValue, hvalue] using hhit
        have hlater : later < value.expiresAt := by
          by_contra hle
          exact h ⟨value, hvalue, hnow, by omega⟩
        have hreturns : catalog.getTableMetadataCached ctx now later schema table response =
            (.ok value.data, catalog) := by
          rw [getTableMetadataCached]
          simp only [if_pos hhit, getCachedValue, hvalue, if_pos hlater]
        refine ⟨Or.inl ⟨value, rfl, Or.inl hnow, hreturns⟩, fun hmissing => ?_⟩
        rw [hreturns] at hmissing
        cases hmissing
    · have hfetches : catalog.getTableMetadataCached ctx now later schema table response =
          catalog.getTableMetadata ctx schema table response := by
        rw [getTableMetadataCached]
        exact if_neg hhit
      refine ⟨Or.inr hfetches, fun hmissing => ?_⟩
      rw [hfetches] at hmissing
      exact getTableMetadata_missing hmissing

/-- The entry of a catalog that has fetched this response expires as the lookup takes it. -/
theorem not_survives_expiring : ¬ Survives session
    (emptyCatalog.execAll session [.fetch 0 "s" "t" (.ok expiringResponse)])
    9999999999 10000000000 "s" "t" := by
  intro h
  have hthrows : ((emptyCatalog.execAll session
      [.fetch 0 "s" "t" (.ok expiringResponse)]).getTableMetadataCached session 9999999999
        10000000000 "s" "t" (.ok plainResponse)).1 = .error missingValue := by decide +kernel
  have hresponse := (h (.ok plainResponse)).2 hthrows
  cases hresponse

end IRCatalog

end DuckIceberg
