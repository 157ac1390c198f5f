import DuckIceberg.SchemaTypes

/-!
# What the scan takes for a type

`ParseTypeValue` looks at the beginning of a text only, takes the digits of a decimal type with
`std::stoi`, and hands them to a function of `uint8_t` arguments; a struct may have no fields array.
The shape that it expects is in debug assertions.

* `Lax`: the values that it takes for a type;
* `lax_of_ok`, `ok_of_lax`: these are the values it returns a type for;
* `sound_iff`: so it is sound on a value that is a type, or is not taken for one.
-/

namespace DuckIceberg

open Strings Json IcebergUtils IcebergType

/-! ### Lax values -/

/-- The position of the last `)`, or `npos`. -/
def LastParen (text : List Char) (stop : ℕ) : Prop :=
  (∃ a b, text = a ++ ')' :: b ∧ ')' ∉ b ∧ stop = a.length) ∨ ')' ∉ text ∧ stop = npos

/-- The text is taken for a decimal type of this width and scale: it begins with `decimal`, and the
part between its first `(` and its last `)` begins with two pieces that begin with numbers.  Positions
are of type `size_t`. -/
def LaxDecimal (text : String) (width scale : ℤ) : Prop :=
  "decimal".toList <+: text.toList ∧ ∃ before rest stop w s more,
    text.toList = before ++ '(' :: rest ∧ '(' ∉ before ∧ LastParen text.toList stop ∧
    split (substr text (idx (before.length + 1)) (idx (stop + 2 ^ 64 - before.length))) ',' =
      w :: s :: more ∧ stoi w = .ok width ∧ stoi s = .ok scale

mutual

/-- The value is taken for this type. -/
inductive Lax : Json → LogicalType → Prop
  | primitive {s : String} {p : IcebergPrimitive} (h : cString s = p.text) :
      Lax (.str s) (.simple p.logical)
  | fixed {s : String} (h : "fixed".toList <+: (cString s).toList) : Lax (.str s) (.simple .blob)
  | decimal {s : String} {width scale : ℤ} (h : LaxDecimal (cString s) width scale)
      (hwidth : toUInt8 width ≤ 38) : Lax (.str s) (.decimal (toUInt8 width) (toUInt8 scale))
  | list {members : List (String × Json)} {s : String} {e : Json} {T : LogicalType}
      (htype : member "type" members = some (.str s)) (hs : cString s = "list")
      (helement : member "element" members = some e) (h : Lax e T) : Lax (.obj members) (.list T)
  | map {members : List (String × Json)} {s : String} {k e : Json} {K V : LogicalType}
      (htype : member "type" members = some (.str s)) (hs : cString s = "map")
      (hkey : member "key" members = some k) (hk : Lax k K)
      (hvalue : member "value" members = some e) (he : Lax e V) : Lax (.obj members) (.map K V)
  | struct {members : List (String × Json)} {s : String} {fields : List (String × LogicalType)}
      (htype : member "type" members = some (.str s)) (hs : cString s = "struct")
      (h : LaxFields (elems (member "fields" members)) fields) :
      Lax (.obj members) (.struct fields)

/-- The values are taken for these fields of a struct. -/
inductive LaxFields : List Json → List (String × LogicalType) → Prop
  | nil : LaxFields [] []
  | cons {members : List (String × Json)} {name : String} {t : Json} {T : LogicalType}
      {vs : List Json} {fields : List (String × LogicalType)}
      (hname : member "name" members = some (.str name))
      (htype : member "type" members = some t) (h : Lax t T) (hvs : LaxFields vs fields) :
      LaxFields (.obj members :: vs) ((cString name, T) :: fields)

end

/-! ### Texts -/

/-- The first piece of a text that begins with another character than the delimiter. -/
theorem split_cons {c d : Char} (hc : c ≠ d) (l : List Char) :
    ∃ p ps, split (String.ofList (c :: l)) d = String.ofList (c :: p) :: ps := by
  obtain ⟨p, ps, hpieces⟩ : ∃ p ps, splitList d (c :: l) = (c :: p) :: ps := by
    rw [splitList, if_neg hc]
    cases splitList d l with
    | nil => exact ⟨[], [], rfl⟩
    | cons p ps => exact ⟨p, ps, rfl⟩
  rw [split, String.toList_ofList, hpieces]
  cases ps with
  | nil => exact ⟨p, [], by simp⟩
  | cons q qs =>
    split_ifs
    · exact ⟨p, _, rfl⟩
    · exact ⟨p, _, rfl⟩

theorem stringAt_eq_ok {l : List String} {i : ℕ} {s : String} :
    stringAt l i = .ok s ↔ l[i]? = some s := by
  rw [stringAt]
  cases l[i]? with
  | none => simp
  | some s' => simp

/-- The digits of a decimal type. -/
def rawDigits (text : String) : String :=
  substr text (idx ((find text "(").getD npos + 1))
    (idx ((rfind text ")").getD npos + 2 ^ 64 - (find text "(").getD npos))

theorem parseDecimal_eq_ok {text : String} {T : LogicalType} : parseDecimal text = .ok T ↔
    ∃ w s more width scale, split (rawDigits text) ',' = w :: s :: more ∧ stoi w = .ok width ∧
      stoi s = .ok scale ∧ makeDecimal width scale = .ok T := by
  have hparse : parseDecimal text = (stringAt (split (rawDigits text) ',') 0 >>= fun w =>
      stoi w >>= fun width => stringAt (split (rawDigits text) ',') 1 >>= fun s =>
        stoi s >>= fun scale => makeDecimal width scale) := rfl
  rw [hparse]
  simp only [bind_eq_ok, stringAt_eq_ok]
  constructor
  · rintro ⟨w, hw, width, hwidth, s, hs, scale, hscale, hT⟩
    match hdigits : split (rawDigits text) ',', hw, hs with
    | w' :: s' :: more, hw, hs =>
      cases hw
      cases hs
      exact ⟨w, s, more, width, scale, rfl, hwidth, hscale, hT⟩
  · rintro ⟨w, s, more, width, scale, hdigits, hwidth, hscale, hT⟩
    rw [hdigits]
    exact ⟨w, rfl, width, hwidth, s, rfl, scale, hscale, hT⟩

theorem makeDecimal_eq_ok {width scale : ℤ} {T : LogicalType} : makeDecimal width scale = .ok T ↔
    toUInt8 width ≤ 38 ∧ T = .decimal (toUInt8 width) (toUInt8 scale) := by
  rw [makeDecimal]
  split_ifs with h
  · simp [h, eq_comm]
  · simp [h]

/-- The position of the last `)`. -/
theorem lastParen_rfind (text : String) :
    LastParen text.toList ((rfind text ")").getD npos) := by
  rcases rfindList_cases ')' text.toList with ⟨hnot, hfind⟩ | ⟨a, b, hab, hb, hfind⟩
  · exact Or.inr ⟨hnot, by rw [rfind]; exact congrArg (·.getD npos) hfind⟩
  · exact Or.inl ⟨a, b, hab, hb, by rw [rfind]; exact congrArg (·.getD npos) hfind⟩

theorem LastParen.eq_rfind {text : String} {stop : ℕ} (h : LastParen text.toList stop) :
    (rfind text ")").getD npos = stop := by
  rcases h with ⟨a, b, hab, hb, rfl⟩ | ⟨hnot, rfl⟩
  · rw [rfind, hab]
    exact congrArg (·.getD npos) (rfindList_char hb a)
  · rw [rfind]
    exact congrArg (·.getD npos) (rfindList_none hnot)

/-- The texts that begin with `decimal` and are taken for a type. -/
theorem parseDecimal_iff {text : String} (hbegin : "decimal".toList <+: text.toList)
    {T : LogicalType} : parseDecimal text = .ok T ↔ ∃ width scale, LaxDecimal text width scale ∧
      toUInt8 width ≤ 38 ∧ T = .decimal (toUInt8 width) (toUInt8 scale) := by
  rw [parseDecimal_eq_ok]
  constructor
  · rintro ⟨w, s, more, width, scale, hdigits, hwidth, hscale, hT⟩
    obtain ⟨hle, rfl⟩ := makeDecimal_eq_ok.1 hT
    refine ⟨width, scale, ⟨hbegin, ?_⟩, hle, rfl⟩
    rcases findList_cases '(' text.toList with ⟨-, hfind⟩ | ⟨before, rest, htext, hbefore, hfind⟩
    · -- the digits begin with the text itself, and not with a number
      exfalso
      have hnone : find text "(" = none := hfind
      have hstart : idx (npos + 1) = 0 := by decide
      obtain ⟨rest, hrest⟩ := hbegin
      rw [rawDigits, hnone, Option.getD_none, hstart, substr, List.drop_zero, ← hrest] at hdigits
      generalize idx ((rfind text ")").getD npos + 2 ^ 64 - npos) = len at hdigits
      cases len with
      | zero => cases hdigits
      | succ len =>
        obtain ⟨p, ps, hsplit⟩ := split_cons (c := 'd') (d := ',') (by decide)
          (("ecimal".toList ++ rest).take len)
        have hw : w = String.ofList ('d' :: p) := (List.cons.inj (hdigits.symm.trans hsplit)).1
        rw [hw, stoi, String.toList_ofList] at hwidth
        cases hwidth
    · have hsome : find text "(" = some before.length := hfind
      rw [rawDigits, hsome] at hdigits
      exact ⟨before, rest, _, w, s, more, htext, hbefore, lastParen_rfind text, hdigits, hwidth,
        hscale⟩
  · rintro ⟨width, scale, ⟨-, before, rest, stop, w, s, more, htext, hbefore, hstop, hdigits, hwidth,
      hscale⟩, hle, rfl⟩
    refine ⟨w, s, more, width, scale, ?_, hwidth, hscale, makeDecimal_eq_ok.2 ⟨hle, rfl⟩⟩
    have hfind : find text "(" = some before.length := by
      rw [find, htext]
      exact findList_char hbefore
    rw [rawDigits, hfind, hstop.eq_rfind]
    exact hdigits

/-- No other text is a type. -/
theorem parsePrimitive_unknown {text : String} (hne : ∀ p : IcebergPrimitive, text ≠ p.text)
    (hfixed : ¬ "fixed".toList <+: text.toList) (hdecimal : ¬ "decimal".toList <+: text.toList) :
    parsePrimitive text = .error ⟨.io,
      "Encountered an unrecognized type in JSON schema: \"" ++ text ++ "\""⟩ := by
  have hnotFixed : ¬ startsWith text "fixed" = true := fun hs => hfixed (startsWith_iff.1 hs)
  have hnotDecimal : ¬ startsWith text "decimal" = true := fun hs => hdecimal (startsWith_iff.1 hs)
  unfold parsePrimitive
  rw [if_neg (show text ≠ "boolean" from hne .boolean), if_neg (show text ≠ "int" from hne .int),
    if_neg (show text ≠ "long" from hne .long), if_neg (show text ≠ "float" from hne .float),
    if_neg (show text ≠ "double" from hne .double), if_neg (show text ≠ "date" from hne .date),
    if_neg (show text ≠ "time" from hne .time),
    if_neg (show text ≠ "timestamp" from hne .timestamp),
    if_neg (show text ≠ "timestamptz" from hne .timestamptz),
    if_neg (show text ≠ "string" from hne .string), if_neg (show text ≠ "uuid" from hne .uuid),
    if_neg hnotFixed, if_neg (show text ≠ "binary" from hne .binary), if_neg hnotDecimal]

/-- **The texts** that are taken for a type. -/
theorem parsePrimitive_eq_ok {text : String} {T : LogicalType} : parsePrimitive text = .ok T ↔
    (∃ p : IcebergPrimitive, text = p.text ∧ T = .simple p.logical) ∨
      ("fixed".toList <+: text.toList ∧ T = .simple .blob) ∨
      ∃ width scale, LaxDecimal text width scale ∧ toUInt8 width ≤ 38 ∧
        T = .decimal (toUInt8 width) (toUInt8 scale) := by
  constructor
  · intro h
    by_cases hprim : ∃ p : IcebergPrimitive, text = p.text
    · obtain ⟨p, rfl⟩ := hprim
      rw [parsePrimitive_text] at h
      cases h
      exact Or.inl ⟨p, rfl, rfl⟩
    by_cases hfixed : "fixed".toList <+: text.toList
    · rw [parsePrimitive_of_fixed hfixed] at h
      cases h
      exact Or.inr (Or.inl ⟨hfixed, rfl⟩)
    by_cases hdecimal : "decimal".toList <+: text.toList
    · rw [parsePrimitive_decimal (startsWith_iff.2 hdecimal), parseDecimal_iff hdecimal] at h
      exact Or.inr (Or.inr h)
    · rw [parsePrimitive_unknown (fun p hp => hprim ⟨p, hp⟩) hfixed hdecimal] at h
      cases h
  · rintro (⟨p, rfl, rfl⟩ | ⟨hfixed, rfl⟩ | hdecimal)
    · exact parsePrimitive_text p
    · exact parsePrimitive_of_fixed hfixed
    · obtain ⟨width, scale, hlax, -⟩ := id hdecimal
      rw [parsePrimitive_decimal (startsWith_iff.2 hlax.1), parseDecimal_iff hlax.1]
      exact hdecimal

/-! ### Values -/

theorem map_eq_ok {α β : Type} {f : α → β} {x : Except Error α} {b : β} :
    x.map f = .ok b ↔ ∃ a, x = .ok a ∧ b = f a := by
  cases x with
  | error e => exact ⟨nofun, fun ⟨_, h, _⟩ => nomatch h⟩
  | ok a => exact ⟨fun h => ⟨a, rfl, (Except.ok.inj h).symm⟩, fun ⟨_, h, h'⟩ => by cases h; rw [h']; rfl⟩

theorem map_eq_error {α β : Type} {f : α → β} {x : Except Error α} {e : Error} :
    x.map f = .error e ↔ x = .error e := by
  cases x with
  | error e' => exact ⟨fun h => congrArg Except.error (Except.error.inj h), fun h => h ▸ rfl⟩
  | ok a => exact iff_of_false nofun nofun

theorem tryGetStr_eq_ok {members : List (String × Json)} {key s : String} :
    tryGetStrFromObject (some (.obj members)) key = .ok s ↔
      ∃ t, member key members = some (.str t) ∧ cString t = s := by
  rw [tryGetStrFromObject, objGet]
  constructor
  · intro h
    split at h
    · rename_i t ht
      cases h
      exact ⟨t, ht, rfl⟩
    · cases h
  · rintro ⟨t, ht, rfl⟩
    rw [ht]

theorem parseMember_eq_ok {key : String} {members : List (String × Json)} {T : LogicalType} :
    parseMember key members = .ok T ↔
      ∃ e, member key members = some e ∧ parseTypeValue e = .ok T := by
  rw [parseMember_eq]
  cases member key members with
  | none => simp [parseTypePtr]
  | some e => simp [parseTypePtr]

/-- The objects that are taken for a type. -/
theorem parseTypeValue_obj_eq_ok {members : List (String × Json)} {T : LogicalType} :
    parseTypeValue (.obj members) = .ok T ↔ ∃ s, member "type" members = some (.str s) ∧
      ((cString s = "list" ∧ ∃ e E, member "element" members = some e ∧
          parseTypeValue e = .ok E ∧ T = .list E) ∨
        (cString s = "map" ∧ ∃ k e K V, member "key" members = some k ∧ parseTypeValue k = .ok K ∧
          member "value" members = some e ∧ parseTypeValue e = .ok V ∧ T = .map K V) ∨
        cString s = "struct" ∧ ∃ fields,
          (elems (member "fields" members)).mapM parseField = .ok fields ∧ T = .struct fields) := by
  rw [parseTypeValue]
  cases htype : tryGetStrFromObject (some (.obj members)) "type" with
  | error e =>
    refine iff_of_false nofun ?_
    rintro ⟨s, hs, -⟩
    cases htype.symm.trans (tryGetStr_eq_ok.2 ⟨s, hs, rfl⟩)
  | ok typeStr =>
    obtain ⟨s, hs, rfl⟩ := tryGetStr_eq_ok.1 htype
    dsimp only
    rw [hs]
    simp only [Option.some.injEq, Json.str.injEq, exists_eq_left']
    by_cases hstruct : cString s = "struct"
    · have hlist : cString s ≠ "list" := by simp [hstruct]
      have hmap : cString s ≠ "map" := by simp [hstruct]
      rw [if_pos hstruct, parseStruct_eq, map_eq_ok, or_iff_right fun h => hlist h.1,
        or_iff_right fun h => hmap h.1, and_iff_right hstruct]
    by_cases hlist : cString s = "list"
    · have hmap : cString s ≠ "map" := by simp [hlist]
      rw [if_neg hstruct, if_pos hlist, map_eq_ok, or_iff_left, and_iff_right hlist]
      · simp only [parseMember_eq_ok]
        constructor
        · rintro ⟨E, ⟨e, he, hE⟩, rfl⟩
          exact ⟨e, E, he, hE, rfl⟩
        · rintro ⟨e, E, he, hE, rfl⟩
          exact ⟨E, ⟨e, he, hE⟩, rfl⟩
      · rintro (h | h)
        · exact hmap h.1
        · exact hstruct h.1
    by_cases hmap : cString s = "map"
    · rw [if_neg hstruct, if_neg hlist, if_pos hmap, or_iff_right fun h => hlist h.1,
        or_iff_left fun h => hstruct h.1, and_iff_right hmap]
      simp only [bind_eq_ok, parseMember_eq_ok]
      constructor
      · rintro ⟨K, ⟨k, hk, hK⟩, V, ⟨e, he, hV⟩, hT⟩
        cases hT
        exact ⟨k, e, K, V, hk, hK, he, hV, rfl⟩
      · rintro ⟨k, e, K, V, hk, hK, he, hV, rfl⟩
        exact ⟨K, ⟨k, hk, hK⟩, V, ⟨e, he, hV⟩, rfl⟩
    · rw [if_neg hstruct, if_neg hlist, if_neg hmap]
      refine iff_of_false nofun ?_
      rintro (h | h | h)
      · exact hlist h.1
      · exact hmap h.1
      · exact hstruct h.1

theorem parseField_eq_ok {v : Json} {x : String × LogicalType} : parseField v = .ok x ↔
    ∃ members name t T, v = .obj members ∧ member "name" members = some (.str name) ∧
      member "type" members = some t ∧ parseTypeValue t = .ok T ∧ x = (cString name, T) := by
  cases v with
  | obj members =>
    rw [parseField_eq]
    simp only [bind_eq_ok, tryGetStr_eq_ok, ← parseMember_eq, parseMember_eq_ok]
    constructor
    · rintro ⟨_, ⟨name, hname, rfl⟩, T, ⟨t, ht, hT⟩, hx⟩
      cases hx
      exact ⟨members, name, t, T, rfl, hname, ht, hT, rfl⟩
    · rintro ⟨_, name, t, T, h, hname, ht, hT, rfl⟩
      cases h
      exact ⟨cString name, ⟨name, hname, rfl⟩, T, ⟨t, ht, hT⟩, rfl⟩
  | null | bool | int | real | str | arr =>
    rw [parseField]
    · refine iff_of_false (fun h => by cases h) ?_
      rintro ⟨members, name, t, T, h, -⟩
      cases h
    · intro members h
      cases h

mutual

/-- **What is taken for a type** is lax. -/
theorem lax_of_ok : ∀ (T : LogicalType) {v : Json}, parseTypeValue v = .ok T → Lax v T
  | T, .str s, h => by
    rw [parseTypeValue, parsePrimitive_eq_ok] at h
    rcases h with ⟨p, hp, rfl⟩ | ⟨hfixed, rfl⟩ | ⟨width, scale, hlax, hwidth, rfl⟩
    · exact .primitive hp
    · exact .fixed hfixed
    · exact .decimal hlax hwidth
  | .list E, .obj members, h => by
    obtain ⟨s, htype, ⟨hs, e, E', he, hE, hT⟩ | ⟨-, k, e, K, V, -, -, -, -, hT⟩ |
      ⟨-, fields, -, hT⟩⟩ := parseTypeValue_obj_eq_ok.1 h
    · cases hT
      exact .list htype hs he (lax_of_ok E hE)
    · cases hT
    · cases hT
  | .map K V, .obj members, h => by
    obtain ⟨s, htype, ⟨-, e, E', -, -, hT⟩ | ⟨hs, k, e, K', V', hk, hK, he, hV, hT⟩ |
      ⟨-, fields, -, hT⟩⟩ := parseTypeValue_obj_eq_ok.1 h
    · cases hT
    · cases hT
      exact .map htype hs hk (lax_of_ok K hK) he (lax_of_ok V hV)
    · cases hT
  | .struct fields, .obj members, h => by
    obtain ⟨s, htype, ⟨-, e, E', -, -, hT⟩ | ⟨-, k, e, K, V, -, -, -, -, hT⟩ |
      ⟨hs, fields', hfields, hT⟩⟩ := parseTypeValue_obj_eq_ok.1 h
    · cases hT
    · cases hT
    · cases hT
      exact .struct htype hs (laxFields_of_ok fields hfields)
  | .simple _, .obj members, h => by
    obtain ⟨s, htype, ⟨-, e, E', -, -, hT⟩ | ⟨-, k, e, K, V, -, -, -, -, hT⟩ |
      ⟨-, fields, -, hT⟩⟩ := parseTypeValue_obj_eq_ok.1 h <;> cases hT
  | .decimal _ _, .obj members, h => by
    obtain ⟨s, htype, ⟨-, e, E', -, -, hT⟩ | ⟨-, k, e, K, V, -, -, -, -, hT⟩ |
      ⟨-, fields, -, hT⟩⟩ := parseTypeValue_obj_eq_ok.1 h <;> cases hT
  | _, .null, h | _, .bool _, h | _, .int _, h | _, .real, h | _, .arr _, h => by
    rw [parseTypeValue] at h
    · cases h
    all_goals exact nofun

/-- So are the fields of a struct. -/
theorem laxFields_of_ok : ∀ (fields : List (String × LogicalType)) {vs : List Json},
    vs.mapM parseField = .ok fields → LaxFields vs fields
  | [], vs, h => by
    rw [mapM_eq_ok, List.forall₂_nil_right_iff] at h
    rw [h]
    exact .nil
  | (name, T) :: fields, vs, h => by
    rw [mapM_eq_ok] at h
    obtain ⟨v, vs', hv, hvs, rfl⟩ := List.forall₂_cons_right_iff.1 h
    obtain ⟨members, name', t, T', rfl, hname, ht, hT, hx⟩ := parseField_eq_ok.1 hv
    cases hx
    exact .cons hname ht (lax_of_ok T hT) (laxFields_of_ok fields (mapM_eq_ok.2 hvs))

end

mutual

/-- A lax value is taken for its type. -/
theorem ok_of_lax : ∀ {v : Json} {T : LogicalType}, Lax v T → parseTypeValue v = .ok T
  | _, _, .primitive hp => by
    rw [parseTypeValue]
    exact parsePrimitive_eq_ok.2 (Or.inl ⟨_, hp, rfl⟩)
  | _, _, .fixed hfixed => by
    rw [parseTypeValue]
    exact parsePrimitive_eq_ok.2 (Or.inr (Or.inl ⟨hfixed, rfl⟩))
  | _, _, .decimal hlax hwidth => by
    rw [parseTypeValue]
    exact parsePrimitive_eq_ok.2 (Or.inr (Or.inr ⟨_, _, hlax, hwidth, rfl⟩))
  | _, _, .list htype hs helement h =>
    parseTypeValue_obj_eq_ok.2 ⟨_, htype, Or.inl ⟨hs, _, _, helement, ok_of_lax h, rfl⟩⟩
  | _, _, .map htype hs hkey hk hvalue he =>
    parseTypeValue_obj_eq_ok.2 ⟨_, htype, Or.inr (Or.inl
      ⟨hs, _, _, _, _, hkey, ok_of_lax hk, hvalue, ok_of_lax he, rfl⟩)⟩
  | _, _, .struct htype hs h =>
    parseTypeValue_obj_eq_ok.2 ⟨_, htype, Or.inr (Or.inr ⟨hs, _, ok_of_laxFields h, rfl⟩)⟩

/-- So are lax fields. -/
theorem ok_of_laxFields : ∀ {vs : List Json} {fields : List (String × LogicalType)},
    LaxFields vs fields → vs.mapM parseField = .ok fields
  | _, _, .nil => rfl
  | _, _, .cons hname htype h hvs => by
    have hfield := parseField_eq_ok.2 ⟨_, _, _, _, rfl, hname, htype, ok_of_lax h, rfl⟩
    rw [List.mapM_cons, hfield, ok_of_laxFields hvs]
    rfl

end

/-! ### Exceptions -/

theorem tryGetStr_type {obj : Option Json} {field : String} {e : Error}
    (h : tryGetStrFromObject obj field = .error e) : e.type = .io := by
  unfold tryGetStrFromObject at h
  split at h
  · cases h
  · cases h
    rfl

theorem stoi_type {s : String} {e : Error} (h : stoi s = .error e) : e.type ≠ .undefined := by
  unfold stoi at h
  split at h
  · cases h
    exact nofun
  · split_ifs at h
    cases h
    exact nofun

theorem stringAt_type {l : List String} {i : ℕ} {e : Error} (h : stringAt l i = .error e) :
    e.type ≠ .undefined := by
  unfold stringAt at h
  split at h
  · cases h
  · cases h
    exact nofun

/-- A digit group that is missing throws, and so does one that is no number. -/
theorem parseDecimal_type {text : String} {e : Error} (h : parseDecimal text = .error e) :
    e.type ≠ .undefined := by
  have hparse : parseDecimal text = (stringAt (split (rawDigits text) ',') 0 >>= fun w =>
      stoi w >>= fun width => stringAt (split (rawDigits text) ',') 1 >>= fun s =>
        stoi s >>= fun scale => makeDecimal width scale) := rfl
  rw [hparse] at h
  rcases bind_eq_error.1 h with h | ⟨w, -, h⟩
  · exact stringAt_type h
  rcases bind_eq_error.1 h with h | ⟨width, -, h⟩
  · exact stoi_type h
  rcases bind_eq_error.1 h with h | ⟨s, -, h⟩
  · exact stringAt_type h
  rcases bind_eq_error.1 h with h | ⟨scale, -, h⟩
  · exact stoi_type h
  rw [makeDecimal] at h
  split_ifs at h
  cases h
  intro htype
  cases htype

theorem parsePrimitive_type {text : String} {e : Error} (h : parsePrimitive text = .error e) :
    e.type ≠ .undefined := by
  by_cases hprim : ∃ p : IcebergPrimitive, text = p.text
  · obtain ⟨p, rfl⟩ := hprim
    rw [parsePrimitive_text] at h
    cases h
  by_cases hfixed : "fixed".toList <+: text.toList
  · rw [parsePrimitive_of_fixed hfixed] at h
    cases h
  by_cases hdecimal : "decimal".toList <+: text.toList
  · rw [parsePrimitive_decimal (startsWith_iff.2 hdecimal)] at h
    exact parseDecimal_type h
  · rw [parsePrimitive_unknown (fun p hp => hprim ⟨p, hp⟩) hfixed hdecimal] at h
    cases h
    exact nofun

mutual

/-- **Every failure** is an exception. -/
theorem parseTypeValue_type : ∀ (v : Json) {e : Error}, parseTypeValue v = .error e →
    e.type ≠ .undefined
  | .obj members, e, h => by
    rw [parseTypeValue] at h
    cases htype : tryGetStrFromObject (some (.obj members)) "type" with
    | error e' =>
      rw [htype] at h
      cases h
      rw [tryGetStr_type htype]
      exact nofun
    | ok typeStr =>
      rw [htype] at h
      dsimp only at h
      by_cases hstruct : typeStr = "struct"
      · rw [if_pos hstruct, map_eq_error] at h
        exact parseStruct_type members h
      by_cases hlist : typeStr = "list"
      · rw [if_neg hstruct, if_pos hlist, map_eq_error] at h
        exact parseMember_type "element" members h
      by_cases hmap : typeStr = "map"
      · rw [if_neg hstruct, if_neg hlist, if_pos hmap] at h
        rcases bind_eq_error.1 h with h | ⟨K, -, h⟩
        · exact parseMember_type "key" members h
        rcases bind_eq_error.1 h with h | ⟨V, -, h⟩
        · exact parseMember_type "value" members h
        · cases h
      · rw [if_neg hstruct, if_neg hlist, if_neg hmap] at h
        cases h
        exact nofun
  | .str s, e, h => by
    rw [parseTypeValue] at h
    exact parsePrimitive_type h
  | .null, e, h | .bool _, e, h | .int _, e, h | .real, e, h | .arr _, e, h => by
    rw [parseTypeValue] at h
    · cases h
      exact nofun
    all_goals exact nofun

theorem parseMember_type (key : String) : ∀ (members : List (String × Json)) {e : Error},
    parseMember key members = .error e → e.type ≠ .undefined
  | [], e, h => by
    rw [parseMember] at h
    cases h
    exact nofun
  | (k, v) :: members, e, h => by
    rw [parseMember] at h
    split_ifs at h
    · exact parseTypeValue_type v h
    · exact parseMember_type key members h

theorem parseStruct_type : ∀ (members : List (String × Json)) {e : Error},
    parseStruct members = .error e → e.type ≠ .undefined
  | [], e, h => by
    rw [parseStruct] at h
    cases h
  | (k, v) :: members, e, h => by
    rw [parseStruct] at h
    split_ifs at h
    · exact parseFieldArray_type v h
    · exact parseStruct_type members h

theorem parseFieldArray_type : ∀ (v : Json) {e : Error}, parseFieldArray v = .error e →
    e.type ≠ .undefined
  | .arr fields, e, h => by
    rw [parseFieldArray] at h
    exact parseFields_type fields h
  | .null, e, h | .bool _, e, h | .int _, e, h | .real, e, h | .str _, e, h | .obj _, e, h => by
    rw [parseFieldArray] at h
    · cases h
    all_goals exact nofun

theorem parseFields_type : ∀ (fields : List Json) {e : Error}, parseFields fields = .error e →
    e.type ≠ .undefined
  | [], e, h => by
    rw [parseFields] at h
    cases h
  | field :: fields, e, h => by
    rw [parseFields] at h
    rcases bind_eq_error.1 h with h | ⟨x, -, h⟩
    · exact parseField_type field h
    rcases bind_eq_error.1 h with h | ⟨xs, -, h⟩
    · exact parseFields_type fields h
    · cases h

theorem parseField_type : ∀ (v : Json) {e : Error}, parseField v = .error e → e.type ≠ .undefined
  | .obj members, e, h => by
    rw [parseField] at h
    rcases bind_eq_error.1 h with h | ⟨name, -, h⟩
    · rw [tryGetStr_type h]
      exact nofun
    rcases bind_eq_error.1 h with h | ⟨T, -, h⟩
    · exact parseMember_type "type" members h
    · cases h
  | .null, e, h | .bool _, e, h | .int _, e, h | .real, e, h | .str _, e, h | .arr _, e, h => by
    rw [parseField] at h
    · cases h
      exact nofun
    all_goals exact nofun

end

/-! ### Soundness -/

namespace IcebergType

mutual

/-- A type of the specification: the length of a `fixed` type and the precision of a decimal are
positive. -/
def Proper : IcebergType → Prop
  | primitive _ => True
  | fixed n => 0 < n
  | decimal precision _ _ => 0 < precision
  | list element => element.Proper
  | map key value => key.Proper ∧ value.Proper
  | struct fields => ProperFields fields

def ProperFields : List (String × IcebergType) → Prop
  | [] => True
  | (_, type) :: fields => type.Proper ∧ ProperFields fields

end

end IcebergType

/-- The parser throws, or the value is a type and the result is its DuckDB type. -/
def Sound (v : Json) : Prop :=
  (∃ e, parseTypeValue v = .error e ∧ e.type ≠ .undefined) ∨
    ∃ T : IcebergType, T.Proper ∧ T.Encodes v ∧ parseTypeValue v = .ok T.logical

/-- **The parser is sound** on a value that is a type, or is not even taken for one. -/
theorem sound_iff (v : Json) : Sound v ↔
    (∃ T : IcebergType, T.Proper ∧ T.Encodes v) ∨ ¬ ∃ L, Lax v L := by
  constructor
  · rintro (⟨e, he, -⟩ | ⟨T, hproper, hencodes, -⟩)
    · refine Or.inr ?_
      rintro ⟨L, hL⟩
      cases he.symm.trans (ok_of_lax hL)
    · exact Or.inl ⟨T, hproper, hencodes⟩
  · rintro (⟨T, hproper, hencodes⟩ | hnot)
    · exact Or.inr ⟨T, hproper, hencodes, parseTypeValue_of_encodes T v hencodes⟩
    · cases hparse : parseTypeValue v with
      | error e => exact Or.inl ⟨e, hparse, parseTypeValue_type v hparse⟩
      | ok L => exact absurd ⟨L, lax_of_ok L hparse⟩ hnot

/-- A precision of 266 is narrowed to 10. -/
theorem not_sound_wide : parseTypeValue (.str "decimal(266, 2)") = .ok (.decimal 10 2) ∧
    ¬ Sound (.str "decimal(266, 2)") := by
  have hparse : parseTypeValue (.str "decimal(266, 2)") = .ok (.decimal 10 2) := by decide +kernel
  refine ⟨hparse, ?_⟩
  rintro (⟨e, he, -⟩ | ⟨T, -, hencodes, hT⟩)
  · cases hparse.symm.trans he
  · have hlogical : T.logical = .decimal 10 2 := Except.ok.inj (hT.symm.trans hparse)
    cases T with
    | decimal precision scale valid =>
      rw [logical] at hlogical
      cases hlogical
      rw [Encodes] at hencodes
      revert hencodes
      simp only [Json.str.injEq]
      decide +kernel
    | primitive | fixed | list | map | struct =>
      rw [logical] at hlogical
      cases hlogical

/-- A text that only begins with `fixed` is taken for a type. -/
example : parseTypeValue (.str "fixed-point") = .ok (.simple .blob) := by decide +kernel

end DuckIceberg
