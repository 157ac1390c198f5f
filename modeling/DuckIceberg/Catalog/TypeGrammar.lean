import DuckIceberg.Catalog.LenientTypes

/-!
# The grammar of type texts

`TypeTree` is the grammar that `TypeToLogicalType` is written for.

* `lenient_of_noDecimalChild`: a text of the grammar is decoded, if no child of a map or a struct in
  it is a decimal;
* `not_ok_of_decimalChild`: otherwise it is cut at the comma of the decimal, and refused;
* `decodesGrammar_iff`: the texts for which the parser does what the grammar says.
-/

namespace DuckIceberg

open Strings Cut ICUtils

/-! ### The grammar -/

/-- The name of a field of a struct. -/
structure ChildName where
  text : List Char
  free : ∀ c ∈ text, c ≠ ',' ∧ c ≠ ':' ∧ c ≠ '<' ∧ c ≠ '>'

/-- A primitive type, with its name. -/
structure KnownType where
  name : String
  id : LogicalTypeId
  known : (name, id) ∈ primitiveTypes

/-- A type, as the grammar has it.  A struct has a first field. -/
inductive TypeTree
  | primitive (p : KnownType)
  | decimal (precision scale : ℕ)
      (valid : 1 ≤ precision ∧ precision ≤ 38 ∧ scale ≤ precision)
  | array (child : TypeTree)
  | map (key value : TypeTree)
  | struct (name : ChildName) (type : TypeTree) (fields : List (ChildName × TypeTree))

namespace TypeTree

/-- The characters of a fixed text, which nothing evaluates. -/
@[irreducible] def chars (s : String) : List Char := s.toList

theorem chars_eq (s : String) : chars s = s.toList := by
  rw [chars]

/-- The text of a decimal type. -/
def decimalText (precision scale : ℕ) : List Char :=
  chars "decimal(" ++ (Nat.toDigits 10 precision ++ ',' :: Nat.toDigits 10 scale ++ ')' :: [])

mutual

/-- The text of a type. -/
def text : TypeTree → List Char
  | primitive p => p.name.toList
  | decimal precision scale _ => decimalText precision scale
  | array child => chars "array<" ++ (child.text ++ '>' :: [])
  | map key value => chars "map<" ++ (key.text ++ ',' :: value.text ++ '>' :: [])
  | struct name type fields =>
    chars "struct<" ++ (name.text ++ ':' :: type.text ++ fieldsText fields ++ '>' :: [])

/-- The text of the fields behind the first. -/
def fieldsText : List (ChildName × TypeTree) → List Char
  | [] => []
  | (name, type) :: fields => ',' :: (name.text ++ ':' :: type.text ++ fieldsText fields)

end

mutual

/-- The DuckDB type. -/
def logical : TypeTree → LogicalType
  | primitive p => .simple p.id
  | decimal precision scale _ => .decimal precision scale
  | array child => .list child.logical
  | map key value => .map key.logical value.logical
  | struct name type fields =>
    .struct ((String.ofList name.text, type.logical) :: logicalFields fields)

/-- The children of the DuckDB type of a struct, behind the first. -/
def logicalFields : List (ChildName × TypeTree) → List (String × LogicalType)
  | [] => []
  | (name, type) :: fields => (String.ofList name.text, type.logical) :: logicalFields fields

end

/-- The type is a decimal. -/
def isDecimal : TypeTree → Bool
  | decimal .. => true
  | _ => false

mutual

/-- No child of a map or a struct in the type is a decimal. -/
def NoDecimalChild : TypeTree → Prop
  | primitive .. => True
  | decimal .. => True
  | array child => child.NoDecimalChild
  | map key value => (key.isDecimal = false ∧ key.NoDecimalChild) ∧
      value.isDecimal = false ∧ value.NoDecimalChild
  | struct _ type fields =>
    (type.isDecimal = false ∧ type.NoDecimalChild) ∧ NoDecimalFields fields

/-- No field is a decimal, or has one for a child of a map or a struct. -/
def NoDecimalFields : List (ChildName × TypeTree) → Prop
  | [] => True
  | (_, type) :: fields =>
    (type.isDecimal = false ∧ type.NoDecimalChild) ∧ NoDecimalFields fields

end

end TypeTree

/-- The text is a rendering of the type. -/
def Rendering (t : String) (T : LogicalType) : Prop :=
  ∃ tree : TypeTree, String.ofList tree.text = t ∧ tree.logical = T

/-! ### Texts of the grammar -/

namespace TypeTree

/-- The text of a field. -/
def fieldText (field : ChildName × TypeTree) : List Char := field.1.text ++ ':' :: field.2.text

/-- A text that no comma cuts when the counter is `d`, and that leaves the counter as it was. -/
def Whole (d : ℤ) (s : List Char) : Prop := ∀ rest, pieces d (s ++ rest) = glue s (pieces d rest)

theorem Whole.append {d : ℤ} {s t : List Char} (hs : Whole d s) (ht : Whole d t) :
    Whole d (s ++ t) := by
  intro rest
  rw [List.append_assoc, hs, ht, glue_glue]

theorem whole_plain {d : ℤ} {s : List Char} (hs : ∀ c ∈ s, c ≠ '<' ∧ c ≠ '>' ∧ (c = ',' → 0 < d)) :
    Whole d s := fun rest => cut_plain hs rest

/-- A text is enclosed in brackets. -/
theorem whole_enclosed {d : ℤ} (keyword : List Char) {body : List Char}
    (hkeyword : ∀ c ∈ keyword, c ≠ '<' ∧ c ≠ '>' ∧ c ≠ ',') (hbody : Whole (d + 1) body) :
    Whole d (keyword ++ '<' :: (body ++ '>' :: [])) := by
  intro rest
  have hkey : Whole d keyword := by
    refine whole_plain fun c hc => ?_
    obtain ⟨h1, h2, h3⟩ := hkeyword c hc
    exact ⟨h1, h2, fun h => absurd h h3⟩
  have hopen : step '<' '>' d '<' = d + 1 := rfl
  have hclose : step '<' '>' (d + 1) '>' = d := by
    change d + 1 - 1 = d
    omega
  calc pieces d (keyword ++ '<' :: (body ++ '>' :: []) ++ rest)
      = pieces d (keyword ++ ('<' :: (body ++ ('>' :: rest)))) := by simp
    _ = glue keyword (glue ['<'] (glue body (glue ['>'] (pieces d rest)))) := by
      rw [hkey, pieces, cut_bracket (by decide) hopen, ← pieces, hbody, pieces,
        cut_bracket (by decide) hclose]
    _ = glue (keyword ++ '<' :: (body ++ '>' :: [])) (pieces d rest) := by
      rw [glue_glue, glue_glue, glue_glue]
      simp

theorem primitive_plain (p : KnownType) :
    ∀ c ∈ p.name.toList, c ≠ '<' ∧ c ≠ '>' ∧ c ≠ ',' := by
  intro c hc
  have hletter : c.isAlpha = true := letters_of_mem p.known c hc
  refine ⟨?_, ?_, ?_⟩
  all_goals
    rintro rfl
    exact absurd hletter (by decide)

/-- The part of a decimal type before its comma. -/
def decimalHead (precision : ℕ) : List Char := chars "decimal(" ++ Nat.toDigits 10 precision

theorem decimalHead_plain (precision : ℕ) :
    ∀ c ∈ decimalHead precision, c ≠ '<' ∧ c ≠ '>' ∧ c ≠ ',' := by
  intro c hc
  rcases List.mem_append.1 hc with hc | hc
  · have hall : ∀ c ∈ "decimal(".toList, c ≠ '<' ∧ c ≠ '>' ∧ c ≠ ',' := by simp
    rw [chars_eq] at hc
    exact hall c hc
  · refine ⟨?_, ?_, ?_⟩
    all_goals
      rintro rfl
      exact notMem_toDigits (by decide) precision hc

theorem decimalText_eq (precision scale : ℕ) : decimalText precision scale =
    decimalHead precision ++ ',' :: (Nat.toDigits 10 scale ++ ')' :: []) := by
  simp only [decimalText, decimalHead, List.append_assoc, List.cons_append]

theorem childName_plain (name : ChildName) : ∀ c ∈ name.text, c ≠ '<' ∧ c ≠ '>' ∧ c ≠ ',' := by
  intro c hc
  obtain ⟨h1, -, h3, h4⟩ := name.free c hc
  exact ⟨h3, h4, h1⟩

theorem whole_of_plain {d : ℤ} {s : List Char} (hs : ∀ c ∈ s, c ≠ '<' ∧ c ≠ '>' ∧ c ≠ ',') :
    Whole d s := by
  refine whole_plain fun c hc => ?_
  obtain ⟨h1, h2, h3⟩ := hs c hc
  exact ⟨h1, h2, fun h => absurd h h3⟩

/-- The name of a field and the colon behind it. -/
theorem whole_field {d : ℤ} (name : ChildName) {s : List Char} (hs : Whole d s) :
    Whole d (name.text ++ ':' :: s) := by
  have hcolon : Whole d [':'] := by
    refine whole_of_plain fun c hc => ?_
    rw [List.mem_singleton.1 hc]
    decide
  have happend := ((whole_of_plain (d := d) (childName_plain name)).append hcolon).append hs
  rwa [List.append_assoc] at happend

mutual

/-- A type is not cut, inside brackets, or where it is no decimal. -/
theorem whole_text : ∀ (tree : TypeTree) (d : ℤ), (0 < d ∨ 0 ≤ d ∧ tree.isDecimal = false) →
    Whole d tree.text
  | .primitive p, d, _ => by
    rw [text]
    exact whole_of_plain (primitive_plain p)
  | .decimal precision scale _, d, hd => by
    have hpos : 0 < d := by
      rcases hd with hd | ⟨-, hd⟩
      · exact hd
      · cases hd
    rw [text, decimalText, chars_eq]
    refine whole_plain fun c hc => ?_
    simp only [List.mem_append, List.mem_cons, List.not_mem_nil, or_false] at hc
    have hdigit : ∀ {n : ℕ}, c ∈ Nat.toDigits 10 n → c ≠ '<' ∧ c ≠ '>' := by
      intro n h
      constructor
      all_goals
        rintro rfl
        exact notMem_toDigits (by decide) n h
    have hkeyword : ∀ c ∈ "decimal(".toList, c ≠ '<' ∧ c ≠ '>' := by simp
    rcases hc with hc | (hc | rfl | hc) | rfl
    · exact ⟨(hkeyword c hc).1, (hkeyword c hc).2, fun _ => hpos⟩
    · exact ⟨(hdigit hc).1, (hdigit hc).2, fun _ => hpos⟩
    · exact ⟨by decide, by decide, fun _ => hpos⟩
    · exact ⟨(hdigit hc).1, (hdigit hc).2, fun _ => hpos⟩
    · exact ⟨by decide, by decide, fun _ => hpos⟩
  | .array child, d, hd => by
    rw [text, chars_eq]
    have hchild := whole_text child (d + 1) (Or.inl (by omega))
    exact whole_enclosed "array".toList (by simp) hchild
  | .map key value, d, hd => by
    rw [text, chars_eq]
    have hkey := whole_text key (d + 1) (Or.inl (by omega))
    have hvalue := whole_text value (d + 1) (Or.inl (by omega))
    have hcomma : Whole (d + 1) [','] := by
      refine whole_plain fun c hc => ?_
      rw [List.mem_singleton.1 hc]
      exact ⟨by decide, by decide, fun _ => by omega⟩
    have hbody := (hkey.append hcomma).append hvalue
    have henclosed := whole_enclosed "map".toList (by simp) hbody
    simpa using henclosed
  | .struct name type fields, d, hd => by
    rw [text, chars_eq]
    have hfield := whole_field name (whole_text type (d + 1) (Or.inl (by omega)))
    have hbody := hfield.append (whole_fieldsText fields (d + 1) (by omega))
    have henclosed := whole_enclosed "struct".toList (by simp) hbody
    simpa using henclosed

theorem whole_fieldsText : ∀ (fields : List (ChildName × TypeTree)) (d : ℤ), 0 < d →
    Whole d (fieldsText fields)
  | [], d, hd => by
    rw [fieldsText]
    exact whole_plain nofun
  | (name, type) :: fields, d, hd => by
    rw [fieldsText]
    have hfield := whole_field name (whole_text type d (Or.inl hd))
    have hcomma : Whole d [','] := by
      refine whole_plain fun c hc => ?_
      rw [List.mem_singleton.1 hc]
      exact ⟨by decide, by decide, fun _ => hd⟩
    exact hcomma.append (hfield.append (whole_fieldsText fields d hd))

end

theorem Whole.pieces_self {d : ℤ} {s : List Char} (hs : Whole d s) : pieces d s = [s] := by
  have hnil := hs []
  rw [List.append_nil] at hnil
  rw [hnil]
  change [s ++ []] = [s]
  rw [List.append_nil]

theorem Whole.pieces_comma {s : List Char} (hs : Whole 0 s) (rest : List Char) :
    pieces 0 (s ++ ',' :: rest) = s :: pieces 0 rest := by
  rw [hs, pieces, cut_sep (by omega)]
  change (s ++ []) :: _ = _
  rw [List.append_nil]

/-- The fields of a struct are cut apart, if none is a decimal. -/
theorem pieces_fields {s : List Char} (hs : Whole 0 s) {fields : List (ChildName × TypeTree)}
    (hfields : ∀ field ∈ fields, field.2.isDecimal = false) :
    pieces 0 (s ++ fieldsText fields) = s :: fields.map fieldText := by
  induction fields generalizing s with
  | nil => rw [fieldsText, List.append_nil, hs.pieces_self, List.map_nil]
  | cons field fields ih =>
    obtain ⟨hfield, hrest⟩ := List.forall_mem_cons.1 hfields
    have hwhole : Whole 0 (fieldText field) :=
      whole_field field.1 (whole_text field.2 0 (Or.inr ⟨le_rfl, hfield⟩))
    obtain ⟨name, type⟩ := field
    rw [fieldsText, hs.pieces_comma, List.map_cons]
    exact congrArg (s :: ·) (ih hwhole hrest)

/-! ### Decoded and refused texts -/

section Decoding

variable {castUInt8 : String → Option (Fin 256)}

theorem isDecimal_of_noDecimalFields {fields : List (ChildName × TypeTree)}
    (h : NoDecimalFields fields) : ∀ field ∈ fields, field.2.isDecimal = false := by
  induction fields with
  | nil => nofun
  | cons field fields ih =>
    obtain ⟨name, type⟩ := field
    rw [NoDecimalFields] at h
    exact List.forall_mem_cons.2 ⟨h.1.1, ih h.2⟩

theorem colon_notMem (name : ChildName) : ':' ∉ name.text := fun h => (name.free ':' h).2.1 rfl

mutual

/-- A text of the grammar is decoded, if no child of a map or a struct in it is a decimal. -/
theorem lenient_of_noDecimalChild
    (hnumeral : ∀ n (hn : n < 256), castUInt8 (toString n) = some ⟨n, hn⟩) :
    ∀ tree : TypeTree, tree.NoDecimalChild → Lenient castUInt8 tree.text tree.logical
  | .primitive p, _ => by
    rw [text, logical]
    have hfind : ∀ entry ∈ primitiveTypes, primitiveType entry.1 = some entry.2 := by decide
    have hprim := hfind (p.name, p.id) p.known
    exact .primitive (by rwa [String.ofList_toList])
  | .decimal precision scale valid, _ => by
    rw [text, logical, decimalText, chars_eq]
    have hcast : ∀ n (hn : n < 256),
        castUInt8 (String.ofList (Nat.toDigits 10 n)) = some ⟨n, hn⟩ := by
      intro n hn
      rw [← Nat.toString_eq_ofList_toDigits]
      exact hnumeral n hn
    exact .decimal (notMem_toDigits (by decide) _) (notMem_toDigits (by decide) _)
      (notMem_toDigits (by decide) _) (hcast precision (by omega)) (hcast scale (by omega))
      valid.2.1 []
  | .array child, h => by
    rw [NoDecimalChild] at h
    rw [text, logical, chars_eq]
    exact .array nofun (lenient_of_noDecimalChild hnumeral child h)
  | .map key value, h => by
    rw [NoDecimalChild] at h
    obtain ⟨⟨hkdec, hk⟩, hvdec, hv⟩ := h
    have hcut : pieces 0 (key.text ++ ',' :: value.text) = [key.text, value.text] := by
      rw [(whole_text key 0 (Or.inr ⟨le_rfl, hkdec⟩)).pieces_comma,
        (whole_text value 0 (Or.inr ⟨le_rfl, hvdec⟩)).pieces_self]
    rw [text, logical, chars_eq]
    exact .map nofun hcut (lenient_of_noDecimalChild hnumeral key hk)
      (lenient_of_noDecimalChild hnumeral value hv)
  | .struct name type fields, h => by
    rw [NoDecimalChild] at h
    obtain ⟨⟨hdec, htype⟩, hfields⟩ := h
    have hwhole := whole_field name (whole_text type 0 (Or.inr ⟨le_rfl, hdec⟩))
    have hcut := pieces_fields hwhole (isDecimal_of_noDecimalFields hfields)
    rw [text, logical, chars_eq]
    refine .struct nofun ?_
    rw [hcut]
    exact .cons (colon_notMem name) (lenient_of_noDecimalChild hnumeral type htype)
      (lenientFields_of_noDecimalFields hnumeral fields hfields)

theorem lenientFields_of_noDecimalFields
    (hnumeral : ∀ n (hn : n < 256), castUInt8 (toString n) = some ⟨n, hn⟩) :
    ∀ fields : List (ChildName × TypeTree), NoDecimalFields fields →
      LenientFields castUInt8 (fields.map fieldText) (logicalFields fields)
  | [], _ => by
    rw [logicalFields]
    exact .nil
  | (name, type) :: fields, h => by
    rw [NoDecimalFields] at h
    rw [List.map_cons, logicalFields]
    exact .cons (colon_notMem name) (lenient_of_noDecimalChild hnumeral type h.1.2)
      (lenientFields_of_noDecimalFields hnumeral fields h.2)

end

/-- The part of a decimal type before its comma is refused. -/
theorem decimalHead_not_ok (precision fuel : ℕ) (T : LogicalType) :
    typeToLogicalTypeFuel castUInt8 fuel (decimalHead precision) ≠ .ok T := by
  intro h
  cases fuel with
  | zero => cases h
  | succ fuel =>
    rw [decimalHead, chars_eq,
      unknown_decimal castUInt8 (notMem_toDigits (by decide) precision)] at h
    cases h

/-- A decimal type is cut at its comma. -/
theorem pieces_decimal (precision scale : ℕ) (rest : List Char) :
    ∃ ps, pieces 0 (decimalText precision scale ++ rest) = decimalHead precision :: ps := by
  have hwhole : Whole 0 (decimalHead precision) := whole_of_plain (decimalHead_plain precision)
  rw [decimalText_eq, List.append_assoc, List.cons_append, hwhole.pieces_comma]
  exact ⟨_, rfl⟩

/-- So is a field whose type is a decimal. -/
theorem pieces_decimalField (name : ChildName) (precision scale : ℕ) (rest : List Char) :
    ∃ ps, pieces 0 (name.text ++ ':' :: decimalText precision scale ++ rest) =
      (name.text ++ ':' :: decimalHead precision) :: ps := by
  have hwhole : Whole 0 (name.text ++ ':' :: decimalHead precision) :=
    whole_field name (whole_of_plain (decimalHead_plain precision))
  have hlist : name.text ++ ':' :: decimalText precision scale ++ rest =
      (name.text ++ ':' :: decimalHead precision) ++
        ',' :: (Nat.toDigits 10 scale ++ ')' :: rest) := by
    rw [decimalText_eq]
    simp
  rw [hlist, hwhole.pieces_comma]
  exact ⟨_, rfl⟩

/-- A map is refused with one of its pieces. -/
theorem map_not_ok {fuel : ℕ} {body p : List Char} (hp : p ∈ pieces 0 body)
    (h : ∀ T, typeToLogicalTypeFuel castUInt8 fuel p ≠ .ok T) (T : LogicalType) :
    typeToLogicalTypeFuel castUInt8 (fuel + 1) ("map<".toList ++ (body ++ '>' :: [])) ≠ .ok T := by
  intro hok
  rw [typeToLogicalTypeFuel_map castUInt8 fuel List.not_mem_nil] at hok
  obtain ⟨keyVal, hchildren, -⟩ := bind_eq_ok.1 hok
  obtain ⟨-, hall⟩ := childTypes_eq_ok.1 hchildren
  obtain ⟨T', hT'⟩ := mapM_ok_iff.1 ⟨keyVal, mapM_eq_ok.2 hall⟩ p hp
  exact h T' hT'

/-- A struct is refused with one of its pieces. -/
theorem struct_not_ok {fuel : ℕ} {body p : List Char} (hp : p ∈ pieces 0 body)
    (h : ∀ x, structChild (typeToLogicalTypeFuel castUInt8 fuel) p ≠ .ok x) (T : LogicalType) :
    typeToLogicalTypeFuel castUInt8 (fuel + 1) ("struct<".toList ++ (body ++ '>' :: [])) ≠
      .ok T := by
  intro hok
  rw [typeToLogicalTypeFuel_struct castUInt8 fuel List.not_mem_nil] at hok
  obtain ⟨types, hchildren, -⟩ := bind_eq_ok.1 hok
  obtain ⟨-, hall⟩ := childTypes_eq_ok.1 hchildren
  obtain ⟨x, hx⟩ := mapM_ok_iff.1 ⟨types, mapM_eq_ok.2 hall⟩ p hp
  exact h x hx

theorem field_not_ok {fuel : ℕ} (name : ChildName) {type : List Char}
    (h : ∀ T, typeToLogicalTypeFuel castUInt8 fuel type ≠ .ok T) (x : String × LogicalType) :
    structChild (typeToLogicalTypeFuel castUInt8 fuel) (name.text ++ ':' :: type) ≠ .ok x := by
  intro hok
  rw [structChild_field _ (colon_notMem name)] at hok
  obtain ⟨T, hT, -⟩ := bind_eq_ok.1 hok
  exact h T hT

theorem pieces_fieldsText (fields : List (ChildName × TypeTree)) :
    ∃ ps, pieces 0 (fieldsText fields) = [] :: ps := by
  cases fields with
  | nil =>
    rw [fieldsText]
    exact ⟨[], rfl⟩
  | cons field fields =>
    rw [fieldsText]
    exact ⟨_, cut_sep le_rfl _⟩

/-- A piece of the fields is refused: the first field, what is left of it, or one behind it. -/
theorem fields_cons_not_ok {fuel : ℕ} (name : ChildName) {type : TypeTree}
    {fields : List (ChildName × TypeTree)}
    (htype : ¬ type.NoDecimalChild → ∀ T, typeToLogicalTypeFuel castUInt8 fuel type.text ≠ .ok T)
    (hfields : ¬ NoDecimalFields fields → ∃ p ∈ (pieces 0 (fieldsText fields)).tail,
      ∀ x, structChild (typeToLogicalTypeFuel castUInt8 fuel) p ≠ .ok x)
    (h : ¬ ((type.isDecimal = false ∧ type.NoDecimalChild) ∧ NoDecimalFields fields)) :
    ∃ p ∈ pieces 0 (name.text ++ ':' :: type.text ++ fieldsText fields),
      ∀ x, structChild (typeToLogicalTypeFuel castUInt8 fuel) p ≠ .ok x := by
  by_cases hdec : type.isDecimal = false
  · have hwhole := whole_field name (whole_text type 0 (Or.inr ⟨le_rfl, hdec⟩))
    obtain ⟨ps, hps⟩ := pieces_fieldsText fields
    have hcut : pieces 0 (name.text ++ ':' :: type.text ++ fieldsText fields) =
        (name.text ++ ':' :: type.text) :: ps := by
      rw [hwhole, hps]
      change (_ ++ []) :: ps = _
      rw [List.append_nil]
    rw [hcut]
    by_cases hchild : type.NoDecimalChild
    · obtain ⟨p, hp, hfail⟩ := hfields fun hf => h ⟨⟨hdec, hchild⟩, hf⟩
      rw [hps, List.tail_cons] at hp
      exact ⟨p, List.mem_cons_of_mem _ hp, hfail⟩
    · exact ⟨_, List.mem_cons_self, field_not_ok name (htype hchild)⟩
  · cases type with
    | decimal precision scale valid =>
      obtain ⟨ps, hps⟩ := pieces_decimalField name precision scale (fieldsText fields)
      rw [text, hps]
      exact ⟨_, List.mem_cons_self, field_not_ok name (decimalHead_not_ok precision fuel)⟩
    | primitive | array | map | struct => exact absurd rfl hdec

mutual

/-- A text of the grammar in which a child of a map or a struct is a decimal is refused. -/
theorem not_ok_of_decimalChild : ∀ tree : TypeTree, ¬ tree.NoDecimalChild → ∀ fuel T,
    typeToLogicalTypeFuel castUInt8 fuel tree.text ≠ .ok T
  | _, _, 0, _ => by
    intro h
    cases h
  | .primitive p, h, _ + 1, _ => absurd (by rw [NoDecimalChild]; trivial) h
  | .decimal .., h, _ + 1, _ => absurd (by rw [NoDecimalChild]; trivial) h
  | .array child, h, fuel + 1, T => by
    rw [NoDecimalChild] at h
    have ih := not_ok_of_decimalChild child h fuel
    intro hok
    rw [text, chars_eq, typeToLogicalTypeFuel_array castUInt8 fuel List.not_mem_nil] at hok
    obtain ⟨T', hT', -⟩ := bind_eq_ok.1 hok
    exact ih T' hT'
  | .map key value, h, fuel + 1, T => by
    rw [NoDecimalChild] at h
    rw [text, chars_eq]
    -- the piece that is refused is the key, the value, or what is left of them
    by_cases hkdec : key.isDecimal = false
    · have hkey := (whole_text key 0 (Or.inr ⟨le_rfl, hkdec⟩)).pieces_comma value.text
      by_cases hk : key.NoDecimalChild
      · by_cases hvdec : value.isDecimal = false
        · have hv : ¬ value.NoDecimalChild := fun hv => h ⟨⟨hkdec, hk⟩, hvdec, hv⟩
          have hvalue := (whole_text value 0 (Or.inr ⟨le_rfl, hvdec⟩)).pieces_self
          exact map_not_ok (by rw [hkey, hvalue]; simp)
            (not_ok_of_decimalChild value hv fuel) T
        · cases value with
          | decimal precision scale valid =>
            obtain ⟨ps, hps⟩ := pieces_decimal precision scale []
            rw [List.append_nil] at hps
            exact map_not_ok (by rw [hkey, text, hps]; simp) (decimalHead_not_ok precision fuel) T
          | primitive | array | map | struct => exact absurd rfl hvdec
      · exact map_not_ok (by rw [hkey]; simp) (not_ok_of_decimalChild key hk fuel) T
    · cases key with
      | decimal precision scale valid =>
        obtain ⟨ps, hps⟩ := pieces_decimal precision scale (',' :: value.text)
        exact map_not_ok (by rw [text, hps]; simp) (decimalHead_not_ok precision fuel) T
      | primitive | array | map | struct => exact absurd rfl hkdec
  | .struct name type fields, h, fuel + 1, T => by
    rw [NoDecimalChild] at h
    obtain ⟨p, hp, hfail⟩ := fields_cons_not_ok name
      (fun htype => not_ok_of_decimalChild type htype fuel)
      (fun hfields => fields_not_ok fields hfields fuel) h
    rw [text, chars_eq]
    exact struct_not_ok hp hfail T

theorem fields_not_ok : ∀ fields : List (ChildName × TypeTree), ¬ NoDecimalFields fields →
    ∀ fuel, ∃ p ∈ (pieces 0 (fieldsText fields)).tail,
      ∀ x, structChild (typeToLogicalTypeFuel castUInt8 fuel) p ≠ .ok x
  | [], h, _ => absurd (by rw [NoDecimalFields]; trivial) h
  | (name, type) :: fields, h, fuel => by
    rw [NoDecimalFields] at h
    rw [fieldsText, pieces, cut_sep le_rfl, List.tail_cons]
    exact fields_cons_not_ok name (fun htype => not_ok_of_decimalChild type htype fuel)
      (fun hfields => fields_not_ok fields hfields fuel) h

end

end Decoding

end TypeTree

/-! ### What the parser does with a text -/

/-- The call ends with an exception. -/
def Raises (result : Except Error LogicalType) : Prop :=
  ∃ e, result = .error e ∧ e.type ≠ .undefined ∧ e.type ≠ .diverged

/-- The parser returns a type exactly when the text is a rendering of it, and raises an exception for
every other text. -/
def DecodesGrammar (castUInt8 : String → Option (Fin 256)) (t : String) : Prop :=
  (∀ T, typeToLogicalType castUInt8 t = .ok T ↔ Rendering t T) ∧
    ((∀ T, ¬ Rendering t T) → Raises (typeToLogicalType castUInt8 t))

section Texts

variable {castUInt8 : String → Option (Fin 256)}
  (hparen : ∀ s : String, ')' ∈ s.toList → castUInt8 s = none)

include hparen

/-- The types that the parser returns. -/
theorem ok_iff_lenient (t : String) (T : LogicalType) :
    typeToLogicalType castUInt8 t = .ok T ↔ Lenient castUInt8 t.toList T :=
  ⟨lenient_of_ok hparen, fun h => ok_of_lenient h (Nat.lt_succ_self _)⟩

/-- It raises an exception for all other texts that it does not read behind. -/
theorem raises_iff (t : String) : Raises (typeToLogicalType castUInt8 t) ↔
    (∀ T, ¬ Lenient castUInt8 t.toList T) ∧ ¬ Overruns castUInt8 t.toList := by
  constructor
  · rintro ⟨e, he, hundefined, -⟩
    constructor
    · intro T hT
      rw [(ok_iff_lenient hparen t T).2 hT] at he
      cases he
    · intro hover
      have hread := readBehindEnd_of_overruns hover (Nat.lt_succ_self _)
      rw [typeToLogicalType, hread] at he
      cases he
      exact hundefined rfl
  · rintro ⟨hlenient, hover⟩
    cases hrun : typeToLogicalType castUInt8 t with
    | ok T => exact absurd ((ok_iff_lenient hparen t T).1 hrun) (hlenient T)
    | error e =>
      refine ⟨e, rfl, ?_, not_diverged hparen (Nat.lt_succ_self _) hrun⟩
      exact fun he => hover (overruns_of_undefined hparen hrun he)

end Texts

/-- **The parser of type texts** does what the grammar says exactly for the texts of types without a
decimal as a child of a map or a struct, and for the texts outside the grammar that are neither
lenient nor read behind. -/
theorem decodesGrammar_iff {castUInt8 : String → Option (Fin 256)}
    (hnumeral : ∀ n (hn : n < 256), castUInt8 (toString n) = some ⟨n, hn⟩)
    (hparen : ∀ s : String, ')' ∈ s.toList → castUInt8 s = none) (t : String) :
    DecodesGrammar castUInt8 t ↔
      (∃ tree : TypeTree, String.ofList tree.text = t ∧ tree.NoDecimalChild) ∨
      (∀ T, ¬ Rendering t T) ∧ (∀ T, ¬ Lenient castUInt8 t.toList T) ∧
        ¬ Overruns castUInt8 t.toList := by
  have hdecoded : ∀ tree : TypeTree, tree.NoDecimalChild → String.ofList tree.text = t →
      typeToLogicalType castUInt8 t = .ok tree.logical := by
    rintro tree htree rfl
    refine (ok_iff_lenient hparen _ _).2 ?_
    rw [String.toList_ofList]
    exact tree.lenient_of_noDecimalChild hnumeral htree
  have hrefused : ∀ tree : TypeTree, ¬ tree.NoDecimalChild → String.ofList tree.text = t →
      ∀ T, typeToLogicalType castUInt8 t ≠ .ok T := by
    rintro tree htree rfl T
    rw [typeToLogicalType, String.toList_ofList]
    exact tree.not_ok_of_decimalChild htree _ T
  constructor
  · rintro ⟨hok, hraises⟩
    by_cases hrender : ∃ T, Rendering t T
    · obtain ⟨T, tree, htext, hT⟩ := hrender
      refine Or.inl ⟨tree, htext, ?_⟩
      by_contra htree
      exact hrefused tree htree htext T ((hok T).2 ⟨tree, htext, hT⟩)
    · have hnone : ∀ T, ¬ Rendering t T := fun T hT => hrender ⟨T, hT⟩
      exact Or.inr ⟨hnone, (raises_iff hparen t).1 (hraises hnone)⟩
  · rintro (⟨tree, htext, htree⟩ | ⟨hnone, hraises⟩)
    · refine ⟨fun T => ⟨fun hT => ?_, ?_⟩, fun hnone => ?_⟩
      · rw [hdecoded tree htree htext] at hT
        exact ⟨tree, htext, Except.ok.inj hT⟩
      · rintro ⟨tree', htext', rfl⟩
        by_cases htree' : tree'.NoDecimalChild
        · exact hdecoded tree' htree' htext'
        · exact absurd (hdecoded tree htree htext) (hrefused tree' htree' htext' _)
      · exact absurd ⟨tree, htext, rfl⟩ (hnone tree.logical)
    · refine ⟨fun T => ?_, fun _ => (raises_iff hparen t).2 hraises⟩
      refine iff_of_false (fun hT => ?_) (hnone T)
      exact hraises.1 T ((ok_iff_lenient hparen t T).1 hT)

/-- A map to arrays of decimals. -/
def mapOfArrays : TypeTree :=
  .map (.primitive ⟨"string", .varchar, by decide⟩) (.array (.decimal 10 2 (by omega)))

/-- A map to decimals. -/
def mapOfDecimals : TypeTree :=
  .map (.primitive ⟨"string", .varchar, by decide⟩) (.decimal 10 2 (by omega))

theorem decodesGrammar_mapOfArrays :
    DecodesGrammar readUInt8 "map<string,array<decimal(10,2)>>" := by
  refine (decodesGrammar_iff (fun _ => readUInt8_numeral)
    (fun s hs => readUInt8_of_mem (by decide) hs) _).2 (Or.inl ⟨mapOfArrays, ?_, ?_⟩)
  · decide +kernel
  · simp only [mapOfArrays, TypeTree.NoDecimalChild, TypeTree.isDecimal, and_self]

theorem not_decodesGrammar_mapOfDecimals :
    ¬ DecodesGrammar readUInt8 "map<string,decimal(10,2)>" := by
  intro h
  have hrender : Rendering "map<string,decimal(10,2)>" mapOfDecimals.logical :=
    ⟨mapOfDecimals, by decide +kernel, rfl⟩
  have hok := (h.1 _).2 hrender
  revert hok
  decide +kernel

end DuckIceberg
