import DuckIceberg.Catalog.TableCredentials

/-!
# Layers of configuration

`GetTableCredentials` applies `ParseConfigOptions` to the `config` of the table and then, on top of
the options that gives, to the `config` of each storage credential.  This is compared with one pass
over the merged object (`merge`), in which the members of the credential replace those of the table.

The two differ in two places (`layers_override_iff`): `url_style` is set when path-style access is
turned on and is not reset when it is turned off, and an endpoint that the table gives is normalised
once more for every credential that gives none.
-/

namespace DuckIceberg

open Strings Json IRCAPI

/-- A `config` object with string values, in which `s3.path-style-access` is well-formed. -/
structure StringConfig where
  members : List (String × String)
  wellFormed : ∀ s ∈ members.lookup "s3.path-style-access", cString s = "true" ∨ cString s = "false"

namespace StringConfig

/-- The object itself. -/
def toJson (c : StringConfig) : Json := .obj (c.members.map fun m => (m.1, .str m.2))

/-- The string under a key. -/
def get? (c : StringConfig) (key : String) : Option String := (c.members.lookup key).map cString

/-- What `s3.path-style-access` says. -/
def pathStyle (c : StringConfig) : Option Bool := (c.get? "s3.path-style-access").map (· = "true")

end StringConfig

theorem lookup_filter (p : String → Bool) (members : List (String × String)) (key : String) :
    (members.filter fun m => p m.1).lookup key =
      if p key = true then members.lookup key else none := by
  induction members with
  | nil => simp
  | cons m members ih =>
    by_cases hm : p m.1 = true
    · rw [List.filter_cons_of_pos (p := fun m : String × String => p m.1) hm, List.lookup_cons, ih,
        List.lookup_cons]
      by_cases hkey : key = m.1
      · subst hkey
        simp [hm]
      · simp [beq_false_of_ne hkey]
    · rw [List.filter_cons_of_neg (p := fun m : String × String => p m.1) hm, ih, List.lookup_cons]
      by_cases hkey : key = m.1
      · subst hkey
        simp [hm]
      · simp [beq_false_of_ne hkey]

namespace StringConfig

/-- The members of `c` replace those of `b`. -/
def mergeMembers (b c : List (String × String)) : List (String × String) :=
  c ++ b.filter fun m => (c.lookup m.1).isNone

theorem lookup_mergeMembers (b c : List (String × String)) (key : String) :
    (mergeMembers b c).lookup key = (c.lookup key).or (b.lookup key) := by
  rw [mergeMembers, List.lookup_append, lookup_filter fun k => (c.lookup k).isNone]
  cases c.lookup key <;> simp

/-- The object in which the members of `c` replace those of `b`. -/
def merge (b c : StringConfig) : StringConfig where
  members := mergeMembers b.members c.members
  wellFormed := by
    intro s hs
    rw [lookup_mergeMembers, Option.mem_def, Option.or_eq_some_iff] at hs
    rcases hs with hs | ⟨-, hs⟩
    · exact c.wellFormed s hs
    · exact b.wellFormed s hs

theorem get?_merge (b c : StringConfig) (key : String) :
    (merge b c).get? key = (c.get? key).or (b.get? key) := by
  rw [get?, merge, lookup_mergeMembers, get?, get?]
  cases c.members.lookup key <;> rfl

theorem pathStyle_merge (b c : StringConfig) :
    (merge b c).pathStyle = c.pathStyle.or b.pathStyle := by
  rw [pathStyle, get?_merge, pathStyle, pathStyle]
  cases c.get? "s3.path-style-access" <;> rfl

theorem merge_members_eq_nil (b c : StringConfig) :
    (merge b c).members = [] ↔ c.members = [] ∧ b.members = [] := by
  have hmembers : (merge b c).members =
      c.members ++ b.members.filter fun m => (c.members.lookup m.1).isNone := rfl
  rw [hmembers, List.append_eq_nil_iff]
  refine and_congr_right fun hc => ?_
  rw [hc, List.filter_eq_self.2 (by simp)]

end StringConfig

/-! ### Endpoints -/

/-- An endpoint without its scheme. -/
def schemeless (endpoint : String) : String :=
  if startsWith endpoint "http://" then substrFrom endpoint 7 else endpoint

theorem trimEndpoint_eq (endpoint : String) : trimEndpoint endpoint =
    if endsWith (schemeless endpoint) "/" then
      substr (schemeless endpoint) 0 ((schemeless endpoint).toList.length - 1)
    else schemeless endpoint := rfl

theorem length_trimEndpoint_le (endpoint : String) :
    (trimEndpoint endpoint).toList.length ≤ (schemeless endpoint).toList.length := by
  rw [trimEndpoint_eq]
  split_ifs
  · simp [substr]
  · exact le_rfl

/-- What has neither the scheme nor a slash at its end is not changed, and nothing else is. -/
theorem trimEndpoint_eq_self_iff (s : String) :
    trimEndpoint s = s ↔ startsWith s "http://" = false ∧ endsWith s "/" = false := by
  constructor
  · intro h
    have hlength : (trimEndpoint s).toList.length = s.toList.length := by rw [h]
    have hle := length_trimEndpoint_le s
    have hscheme : startsWith s "http://" = false := by
      by_contra hstarts
      rw [Bool.not_eq_false] at hstarts
      have hprefix := (startsWith_iff.1 hstarts).length_le
      have hseven : "http://".toList.length = 7 := rfl
      have hshort : (schemeless s).toList.length = s.toList.length - 7 := by
        simp [schemeless, hstarts, substrFrom]
      omega
    refine ⟨hscheme, ?_⟩
    by_contra hends
    rw [Bool.not_eq_false] at hends
    have hsuffix := (endsWith_iff.1 hends).length_le
    have hone : "/".toList.length = 1 := rfl
    have hsame : schemeless s = s := by simp [schemeless, hscheme]
    have hshort : (trimEndpoint s).toList.length = s.toList.length - 1 := by
      rw [trimEndpoint_eq, hsame, if_pos hends]
      simp [substr]
    omega
  · rintro ⟨hscheme, hends⟩
    have hsame : schemeless s = s := by simp [schemeless, hscheme]
    rw [trimEndpoint_eq, hsame, hends]
    rfl

/-- To trim an endpoint again changes nothing exactly when without its scheme it has no second scheme
and does not end with two slashes. -/
theorem trimEndpoint_trimEndpoint_iff (endpoint : String) :
    trimEndpoint (trimEndpoint endpoint) = trimEndpoint endpoint ↔
      startsWith (schemeless endpoint) "http://" = false ∧
        endsWith (schemeless endpoint) "//" = false := by
  rw [trimEndpoint_eq_self_iff, trimEndpoint_eq]
  generalize schemeless endpoint = s
  by_cases hends : endsWith s "/" = true
  · rw [if_pos hends]
    obtain ⟨l, hl⟩ := endsWith_iff.1 hends
    have hs : s.toList = l ++ ['/'] := hl.symm
    have htrim : (substr s 0 (s.toList.length - 1)).toList = l := by simp [substr, hs]
    rw [← Bool.not_eq_true, ← Bool.not_eq_true, ← Bool.not_eq_true, ← Bool.not_eq_true,
      startsWith_iff, startsWith_iff, endsWith_iff, endsWith_iff, htrim, hs]
    have hslashes : "//".toList <:+ l ++ ['/'] ↔ "/".toList <:+ l :=
      (List.suffix_append_self_iff : ['/'] ++ ['/'] <:+ l ++ ['/'] ↔ ['/'] <:+ l)
    rw [hslashes]
    refine and_congr_left fun hslash => not_congr ?_
    have hscheme : "http://".toList = "http:/".toList ++ ['/'] := rfl
    rw [List.prefix_concat_iff, hscheme]
    refine ⟨Or.inr, fun h => h.resolve_left fun heq => hslash ?_⟩
    rw [← (List.append_inj_left' heq rfl)]
    exact ⟨"http:".toList, rfl⟩
  · have hslashes : endsWith s "//" = false := by
      by_contra h
      rw [Bool.not_eq_false] at h
      refine hends (endsWith_iff.2 (List.IsSuffix.trans ⟨['/'], rfl⟩ (endsWith_iff.1 h)))
    rw [if_neg hends, Bool.eq_false_iff.2 hends, hslashes]

/-! ### One layer -/

section Layer

variable (c : StringConfig)

theorem member_map_str (members : List (String × String)) (key : String) :
    Json.member key (members.map fun m => (m.1, .str m.2)) = (members.lookup key).map .str := by
  induction members with
  | nil => rfl
  | cons m members ih =>
    rw [List.map_cons, Json.member, ih, List.lookup_cons]
    by_cases hkey : key = m.1
    · subst hkey
      simp
    · simp [beq_false_of_ne hkey, Ne.symm hkey]

theorem objGet_toJson (key : String) :
    objGet (some c.toJson) key = (c.members.lookup key).map .str :=
  member_map_str c.members key

/-- The body of the loop over `config_to_option`. -/
def copyOption (config : Option Json) (options : CIMap Value) (entry : String × String) :
    CIMap Value :=
  match objGet config entry.1 with
  | some item => options.insert entry.2 (getStr item)
  | none => options

theorem find?_copyOption (options : CIMap Value) (entry : String × String) (k : String) :
    (copyOption (some c.toJson) options entry).find? k =
      if lower entry.2 = lower k then ((c.get? entry.1).map .varchar).or (options.find? k)
      else options.find? k := by
  rw [copyOption, objGet_toJson, StringConfig.get?]
  cases c.members.lookup entry.1 with
  | none => simp
  | some s =>
    simp only [Option.map_some, NormMap.find?_insert, Option.some_or, getStr]

/-- The option that is taken as it is from the object, of these. -/
def copied (es : List (String × String)) (k : String) : Option Value :=
  (es.find? fun e => lower e.2 = lower k).bind fun e => (c.get? e.1).map .varchar

theorem find?_foldl_copyOption (es : List (String × String))
    (hes : es.Pairwise fun e e' => lower e.2 ≠ lower e'.2) (options : CIMap Value) (k : String) :
    (es.foldl (copyOption (some c.toJson)) options).find? k =
      (copied c es k).or (options.find? k) := by
  induction es generalizing options with
  | nil => rfl
  | cons e es ih =>
    obtain ⟨hhead, htail⟩ := List.pairwise_cons.1 hes
    rw [List.foldl_cons, ih htail, find?_copyOption, copied, copied, List.find?_cons]
    by_cases hk : lower e.2 = lower k
    · have hrest : (es.find? fun e => decide (lower e.2 = lower k)) = none := by
        refine List.find?_eq_none.2 fun e' he' => ?_
        rw [decide_eq_true_eq]
        exact fun h => hhead e' he' (hk.trans h.symm)
      simp [hrest, hk]
    · simp [hk]

theorem find?_copyOptions (options : CIMap Value) (k : String) :
    (copyOptions (some c.toJson) options).find? k =
      (copied c configToOption k).or (options.find? k) :=
  find?_foldl_copyOption c configToOption (by decide +kernel) options k

/-- The options that `s3.path-style-access` sets. -/
def styled (k : String) : Option Value :=
  match c.pathStyle with
  | none => none
  | some style =>
    if lower k = "use_ssl" then some (.boolean !style)
    else if lower k = "url_style" ∧ style then some (.varchar "path") else none

theorem find?_pathStyleOptions (options : CIMap Value) :
    ∃ result, pathStyleOptions (some c.toJson) options = .ok result ∧
      ∀ k, result.find? k = (styled c k).or (options.find? k) := by
  have hssl : lower "use_ssl" = "use_ssl" := by decide +kernel
  have hurl : lower "url_style" = "url_style" := by decide +kernel
  rw [pathStyleOptions, objGet_toJson]
  cases hstyle : c.members.lookup "s3.path-style-access" with
  | none => exact ⟨options, rfl, fun k => by simp [styled, StringConfig.pathStyle,
      StringConfig.get?, hstyle]⟩
  | some s =>
    rcases c.wellFormed s hstyle with hs | hs
    · refine ⟨_, if_pos hs, fun k => ?_⟩
      simp only [styled, StringConfig.pathStyle, StringConfig.get?, hstyle, hs, Option.map_some,
        NormMap.find?_insert, hssl, hurl, decide_true, Bool.not_true]
      by_cases hk : lower k = "use_ssl"
      · simp [hk]
      · by_cases hk' : lower k = "url_style"
        · simp [hk']
        · simp [hk, hk', Ne.symm hk, Ne.symm hk']
    · have htrue : ¬ cString s = "true" := by rw [hs]; decide
      refine ⟨_, (if_neg htrue).trans (if_pos hs), fun k => ?_⟩
      simp only [styled, StringConfig.pathStyle, StringConfig.get?, hstyle, Option.map_some,
        NormMap.find?_insert, hssl, htrue, decide_false, Bool.not_false]
      by_cases hk : lower k = "use_ssl"
      · simp [hk]
      · simp [hk, Ne.symm hk]

/-- What an object says about an option. -/
def given (k : String) : Option Value := (styled c k).or (copied c configToOption k)

/-- The endpoint is trimmed, wherever it is from. -/
def trimmed (k : String) (option : Option Value) : Option Value :=
  if lower k = "endpoint" then option.map fun v => .varchar (trimEndpoint v.toString) else option

/-- One layer: an object that is not empty overrides the options, and the endpoint is trimmed. -/
theorem find?_parseConfigOptions (hc : c.members ≠ []) (options : CIMap Value) :
    ∃ result, parseConfigOptions (some c.toJson) options = .ok result ∧
      ∀ k, result.find? k = trimmed k ((given c k).or (options.find? k)) := by
  have hendpoint : lower "endpoint" = "endpoint" := by decide +kernel
  have hsize : ¬ objSize (some c.toJson) = 0 := by
    simpa [objSize, StringConfig.toJson] using hc
  obtain ⟨styles, hstyles, hfind⟩ :=
    find?_pathStyleOptions c (copyOptions (some c.toJson) options)
  have hread : ∀ k, styles.find? k = (given c k).or (options.find? k) := fun k => by
    rw [hfind, find?_copyOptions, given, Option.or_assoc]
  rw [parseConfigOptions, if_neg hsize, hstyles]
  dsimp only [bind, Except.bind]
  cases hend : styles.find? "endpoint" with
  | none =>
    refine ⟨styles, rfl, fun k => ?_⟩
    rw [← hread, trimmed]
    split_ifs with hk
    · rw [NormMap.find?_congr styles (hk.trans hendpoint.symm), hend]
      rfl
    · rfl
  | some endpoint =>
    refine ⟨_, rfl, fun k => ?_⟩
    rw [← hread, trimmed, NormMap.find?_insert, hendpoint]
    by_cases hk : lower k = "endpoint"
    · rw [if_pos hk.symm, if_pos hk, NormMap.find?_congr styles (hk.trans hendpoint.symm), hend]
      rfl
    · rw [if_neg hk, if_neg (Ne.symm hk)]

theorem parseConfigOptions_nil (hc : c.members = []) (options : CIMap Value) :
    parseConfigOptions (some c.toJson) options = .ok options := by
  have hsize : objSize (some c.toJson) = 0 := by simp [objSize, StringConfig.toJson, hc]
  rw [parseConfigOptions, if_pos hsize]

end Layer

/-! ### Two layers -/

/-- The options `GetTableCredentials` begins with: the region of the catalog's secret, or none. -/
def initialOptions : Option String → CIMap Value
  | none => NormMap.empty
  | some region => NormMap.empty.insert "region" (.varchar region)

/-- The same options, or the same exception. -/
def SameOptions (r r' : Except Error (CIMap Value)) : Prop :=
  match r, r' with
  | .ok options, .ok options' => ∀ k, options.find? k = options'.find? k
  | .error e, .error e' => e = e'
  | _, _ => False

/-- The options of a storage credential with the `config` object `c`, in a table whose `config` is
`b`. -/
def layeredOptions (region : Option String) (b c : StringConfig) : Except Error (CIMap Value) := do
  let options ← parseConfigOptions (some b.toJson) (initialOptions region)
  parseConfigOptions (some c.toJson) options

/-- The options that `GetTableCredentials` begins with, and those it makes of the table's object. -/
theorem configOptions_toJson (b : StringConfig) (secret : KeyValueSecret) :
    configOptions (some b.toJson) (some secret) =
      parseConfigOptions (some b.toJson) (initialOptions (some (secret.tryGetValue "region"))) := rfl

/-- The secret of a storage credential has the options of the two layers. -/
theorem storageCredential_layered (b c : StringConfig) (secret : KeyValueSecret)
    (baseName scope : String) (index : ℕ) :
    (do
      let options ← configOptions (some b.toJson) (some secret)
      storageCredential baseName options
        (.obj [("prefix", .str scope), ("config", c.toJson)], index)) =
      (layeredOptions (some (secret.tryGetValue "region")) b c).map fun options =>
        { name := baseName ++ indexSuffix index (cString scope)
          scope := [cString scope]
          options } := by
  rw [configOptions_toJson, layeredOptions]
  cases parseConfigOptions (some b.toJson) (initialOptions (some (secret.tryGetValue "region"))) with
  | error e => rfl
  | ok options => rfl

/-- The members of the credential override those of the table. -/
def Overrides (region : Option String) (b c : StringConfig) : Prop :=
  SameOptions (layeredOptions region b c)
    (parseConfigOptions (some (b.merge c).toJson) (initialOptions region))

/-- Path-style access is turned on by the table and turned off by the credential. -/
def TurnsOff (b c : StringConfig) : Prop := b.pathStyle = some true ∧ c.pathStyle = some false

/-- The endpoint of the table is trimmed for a credential that gives none, and changes once more. -/
def TrimsAgain (b c : StringConfig) : Prop :=
  c.members ≠ [] ∧ c.get? "s3.endpoint" = none ∧ ∃ endpoint ∈ b.get? "s3.endpoint",
    startsWith (schemeless endpoint) "http://" = true ∨ endsWith (schemeless endpoint) "//" = true

section Layers

variable (b c : StringConfig)

theorem copied_merge (es : List (String × String)) (k : String) :
    copied (b.merge c) es k = (copied c es k).or (copied b es k) := by
  unfold copied
  cases es.find? fun e => decide (lower e.2 = lower k) with
  | none => rfl
  | some e =>
    simp only [Option.bind_some, StringConfig.get?_merge]
    cases c.get? e.1 <;> rfl

theorem copied_of_style {k : String} (hk : lower k = "use_ssl" ∨ lower k = "url_style") :
    copied c configToOption k = none := by
  have hnone : (configToOption.find? fun e => decide (lower e.2 = lower k)) = none := by
    rcases hk with hk | hk <;> rw [hk] <;> decide +kernel
  rw [copied, hnone]
  rfl

theorem given_endpoint {k : String} (hk : lower k = "endpoint") :
    given c k = (c.get? "s3.endpoint").map .varchar := by
  have hentry : (configToOption.find? fun e => decide (lower e.2 = lower k)) =
      some ("s3.endpoint", "endpoint") := by
    rw [hk]
    decide +kernel
  have hstyle : styled c k = none := by
    unfold styled
    cases c.pathStyle with
    | none => rfl
    | some style => simp [hk]
  rw [given, hstyle, copied, hentry]
  rfl

theorem given_urlStyle {k : String} (hk : lower k = "url_style") :
    given c k = if c.pathStyle = some true then some (.varchar "path") else none := by
  rw [given, copied_of_style c (Or.inr hk), styled]
  rcases c.pathStyle with _ | _ | _ <;> simp [hk]

/-- The merged object says what the two say, the second first, but for the style of the URL. -/
theorem given_merge {k : String} (h : lower k = "url_style" → ¬ TurnsOff b c) :
    given (b.merge c) k = (given c k).or (given b k) := by
  by_cases hurl : lower k = "url_style"
  · have hstyles := h hurl
    rw [TurnsOff] at hstyles
    rw [given_urlStyle _ hurl, given_urlStyle _ hurl, given_urlStyle _ hurl,
      StringConfig.pathStyle_merge]
    rcases hc : c.pathStyle with _ | _ | _ <;> rcases hb : b.pathStyle with _ | _ | _ <;>
      simp_all
  · by_cases hssl : lower k = "use_ssl"
    · simp only [given, copied_of_style _ (Or.inl hssl), Option.or_none, styled, hssl, if_true,
        StringConfig.pathStyle_merge]
      cases c.pathStyle <;> rfl
    · have hstyle : ∀ c' : StringConfig, styled c' k = none := by
        intro c'
        unfold styled
        cases c'.pathStyle with
        | none => rfl
        | some style => simp [hssl, hurl]
      simp only [given, hstyle, Option.none_or, copied_merge]

theorem find?_initialOptions (region : Option String) {k : String}
    (hk : lower k = "endpoint" ∨ lower k = "url_style") :
    (initialOptions region).find? k = none := by
  cases region with
  | none => rfl
  | some region =>
    have hne : lower "region" ≠ lower k := by
      rcases hk with hk | hk <;> rw [hk] <;> decide +kernel
    rw [initialOptions, NormMap.find?_insert, if_neg hne]
    rfl

theorem SameOptions.refl (r : Except Error (CIMap Value)) : SameOptions r r := by
  cases r with
  | error e => rfl
  | ok options => exact fun k => rfl

theorem merge_of_nil_right (hc : c.members = []) : b.merge c = b := by
  cases b with
  | mk members wellFormed =>
    simp [StringConfig.merge, StringConfig.mergeMembers, hc]

theorem merge_of_nil_left (hb : b.members = []) : b.merge c = c := by
  cases c with
  | mk members wellFormed =>
    simp [StringConfig.merge, StringConfig.mergeMembers, hb]

theorem get?_of_nil (hc : c.members = []) (key : String) : c.get? key = none := by
  simp [StringConfig.get?, hc]

theorem pathStyle_of_nil (hc : c.members = []) : c.pathStyle = none := by
  rw [StringConfig.pathStyle, get?_of_nil c hc]
  rfl

theorem trimmed_endpoint {k : String} (hk : lower k = "endpoint") (s : String) :
    trimmed k (some (.varchar s)) = some (.varchar (trimEndpoint s)) := by
  rw [trimmed, if_pos hk]
  rfl

/-- Two layers that are not empty, option by option. -/
theorem overrides_iff_forall (region : Option String) (hb : b.members ≠ []) (hc : c.members ≠ []) :
    Overrides region b c ↔
      ∀ k, trimmed k ((given c k).or (trimmed k ((given b k).or ((initialOptions region).find? k)))) =
        trimmed k ((given (b.merge c) k).or ((initialOptions region).find? k)) := by
  have hmerge : (b.merge c).members ≠ [] := fun h => hc ((b.merge_members_eq_nil c).1 h).1
  obtain ⟨table, htable, htableRead⟩ := find?_parseConfigOptions b hb (initialOptions region)
  obtain ⟨layered, hcredential, hlayeredRead⟩ := find?_parseConfigOptions c hc table
  obtain ⟨merged, hmerged, hmergedRead⟩ :=
    find?_parseConfigOptions (b.merge c) hmerge (initialOptions region)
  have hlayered : layeredOptions region b c = .ok layered := by
    rw [layeredOptions, htable]
    exact hcredential
  rw [Overrides, hlayered, hmerged]
  refine forall_congr' fun k => ?_
  rw [hlayeredRead, htableRead, hmergedRead]

theorem overrides_of_nil_right (region : Option String) (hc : c.members = []) :
    Overrides region b c := by
  obtain ⟨options, hoptions⟩ : ∃ options,
      parseConfigOptions (some b.toJson) (initialOptions region) = .ok options := by
    by_cases hb : b.members = []
    · exact ⟨_, parseConfigOptions_nil b hb _⟩
    · obtain ⟨options, hoptions, -⟩ := find?_parseConfigOptions b hb (initialOptions region)
      exact ⟨options, hoptions⟩
  have hlayered : layeredOptions region b c = .ok options := by
    rw [layeredOptions, hoptions]
    exact parseConfigOptions_nil c hc options
  rw [Overrides, merge_of_nil_right b c hc, hlayered, hoptions]
  exact SameOptions.refl _

theorem overrides_of_nil_left (region : Option String) (hb : b.members = []) :
    Overrides region b c := by
  have hlayered : layeredOptions region b c =
      parseConfigOptions (some c.toJson) (initialOptions region) := by
    rw [layeredOptions, parseConfigOptions_nil b hb]
    rfl
  rw [Overrides, merge_of_nil_left b c hb, hlayered]
  exact SameOptions.refl _

theorem not_turnsOff_of_nil (h : b.members = [] ∨ c.members = []) : ¬ TurnsOff b c := by
  rintro ⟨hon, hoff⟩
  rcases h with h | h
  · rw [pathStyle_of_nil b h] at hon
    cases hon
  · rw [pathStyle_of_nil c h] at hoff
    cases hoff

theorem not_trimsAgain_of_nil (h : b.members = [] ∨ c.members = []) : ¬ TrimsAgain b c := by
  rintro ⟨hc, -, endpoint, hendpoint, -⟩
  rcases h with h | h
  · rw [get?_of_nil b h] at hendpoint
    cases hendpoint
  · exact hc h

/-- An option of the table survives where the credential does not reset it. -/
theorem not_turnsOff_of_overrides {region : Option String} (hb : b.members ≠ [])
    (hc : c.members ≠ []) (h : Overrides region b c) : ¬ TurnsOff b c := by
  intro hoff
  have hurl : lower "url_style" = "url_style" := by decide +kernel
  have hstyle := (overrides_iff_forall b c region hb hc).1 h "url_style"
  rw [find?_initialOptions region (Or.inr hurl), given_urlStyle _ hurl, given_urlStyle _ hurl,
    given_urlStyle _ hurl, b.pathStyle_merge c, hoff.1, hoff.2] at hstyle
  simp [trimmed, hurl] at hstyle

theorem not_trimsAgain_of_overrides {region : Option String} (hb : b.members ≠ [])
    (hc : c.members ≠ []) (h : Overrides region b c) : ¬ TrimsAgain b c := by
  rintro ⟨-, hnone, endpoint, hget, hagain⟩
  rw [Option.mem_def] at hget
  have hendpoint : lower "endpoint" = "endpoint" := by decide +kernel
  have htwice := (overrides_iff_forall b c region hb hc).1 h "endpoint"
  rw [find?_initialOptions region (Or.inl hendpoint), given_endpoint _ hendpoint,
    given_endpoint _ hendpoint, given_endpoint _ hendpoint, b.get?_merge c, hnone, hget] at htwice
  simp only [Option.map_none, Option.map_some, Option.none_or, Option.or_none,
    trimmed_endpoint hendpoint, Option.some.injEq, Value.varchar.injEq] at htwice
  obtain ⟨hscheme, hslashes⟩ := (trimEndpoint_trimEndpoint_iff endpoint).1 htwice
  rw [hscheme, hslashes] at hagain
  simp at hagain

theorem overrides_of_not {region : Option String} (hb : b.members ≠ []) (hc : c.members ≠ [])
    (hoff : ¬ TurnsOff b c) (hagain : ¬ TrimsAgain b c) : Overrides region b c := by
  refine (overrides_iff_forall b c region hb hc).2 fun k => ?_
  rw [given_merge b c fun _ => hoff, Option.or_assoc]
  by_cases hk : lower k = "endpoint"
  · rw [find?_initialOptions region (Or.inl hk), Option.or_none, given_endpoint b hk,
      given_endpoint c hk]
    cases hget : c.get? "s3.endpoint" with
    | some endpoint => rfl
    | none =>
      cases hget' : b.get? "s3.endpoint" with
      | none => simp [trimmed]
      | some endpoint =>
        have htwice : trimEndpoint (trimEndpoint endpoint) = trimEndpoint endpoint := by
          refine (trimEndpoint_trimEndpoint_iff endpoint).2 ?_
          by_contra h
          refine hagain ⟨hc, hget, endpoint, hget', ?_⟩
          rcases not_and_or.1 h with h | h
          · exact Or.inl (Bool.not_eq_false _ ▸ h)
          · exact Or.inr (Bool.not_eq_false _ ▸ h)
        simp only [Option.map_none, Option.map_some, Option.none_or, trimmed_endpoint hk, htwice]
  · simp only [trimmed, if_neg hk]

/-- **Layers of configuration override each other**, unless the credential turns path-style access
off that the table turned on, or gives no endpoint where that of the table can be trimmed again. -/
theorem layers_override_iff (region : Option String) :
    Overrides region b c ↔ ¬ TurnsOff b c ∧ ¬ TrimsAgain b c := by
  by_cases hb : b.members = []
  · exact iff_of_true (overrides_of_nil_left b c region hb)
      ⟨not_turnsOff_of_nil b c (Or.inl hb), not_trimsAgain_of_nil b c (Or.inl hb)⟩
  by_cases hc : c.members = []
  · exact iff_of_true (overrides_of_nil_right b c region hc)
      ⟨not_turnsOff_of_nil b c (Or.inr hc), not_trimsAgain_of_nil b c (Or.inr hc)⟩
  constructor
  · intro h
    exact ⟨not_turnsOff_of_overrides b c hb hc h, not_trimsAgain_of_overrides b c hb hc h⟩
  · rintro ⟨hoff, hagain⟩
    exact overrides_of_not b c hb hc hoff hagain

end Layers

/-- A table or a credential that says this about path-style access. -/
def pathStyleConfig (on : Bool) : StringConfig where
  members := [("s3.path-style-access", if on then "true" else "false")]
  wellFormed := by
    cases on <;> decide +kernel

theorem SameOptions.map_find? {r r' : Except Error (CIMap Value)} (h : SameOptions r r')
    (k : String) :
    r.toOption.map (NormMap.find? · k) = r'.toOption.map (NormMap.find? · k) := by
  cases r <;> cases r'
  · rfl
  · cases h
  · cases h
  · exact congrArg some (h k)

/-- The style of the URL stays `path` when a credential turns path-style access off. -/
theorem not_overrides_pathStyle :
    ¬ Overrides none (pathStyleConfig true) (pathStyleConfig false) := by
  intro h
  have hstyle := h.map_find? "url_style"
  have hlayered : (layeredOptions none (pathStyleConfig true) (pathStyleConfig false)).toOption.map
      (NormMap.find? · "url_style") = some (some (.varchar "path")) := by decide +kernel
  have hmerged : (parseConfigOptions
      (some ((pathStyleConfig true).merge (pathStyleConfig false)).toJson)
      (initialOptions none)).toOption.map (NormMap.find? · "url_style") = some none := by
    decide +kernel
  rw [hlayered, hmerged] at hstyle
  cases hstyle

end DuckIceberg
