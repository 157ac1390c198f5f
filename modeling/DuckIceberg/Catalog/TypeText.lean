import DuckIceberg.Catalog.CatalogUtils
import DuckIceberg.Lib.Cut
import DuckIceberg.Schema

/-!
# Types as texts

`ICUtils::TypeToLogicalType`: the catalog takes the type of a column from a text.  A text of the
given number of characters is parsed with one unit of fuel more, which is always enough.

* `children_eq`: the loop over the children of a map or struct cuts the text at its outer commas;
* `typeToLogicalTypeFuel_array` and its like: what each kind of text is parsed to.
-/

namespace DuckIceberg

open Strings Cut

namespace ICUtils

/-! ### The parser -/

/-- The texts that `TypeToLogicalType` compares with. -/
def primitiveTypes : List (String × LogicalTypeId) :=
  [("tinyint", .tinyint), ("smallint", .smallint), ("bigint", .bigint), ("int", .integer),
    ("long", .bigint), ("string", .varchar), ("double", .double), ("float", .float),
    ("boolean", .boolean), ("timestamp", .timestamp), ("timestamptz", .timestampTz),
    ("binary", .blob), ("date", .date)]

/-- The type that such a text gives. -/
def primitiveType (typeText : String) : Option LogicalTypeId :=
  (primitiveTypes.find? (·.1 = typeText)).map Prod.snd

/-- `type_text.substr(pos, len)` -/
def subText (text : List Char) (pos len : ℕ) : List Char := (text.drop pos).take len

/-- `type_text.substr(pos, stop - pos)`, which takes the rest of the text where the difference is
negative, or where there is no `stop` (then it is `npos`) -/
def subUntil (text : List Char) (pos : ℕ) (stop : Option ℕ) : List Char :=
  match stop with
  | some stop => if pos ≤ stop then subText text pos (stop - pos) else text.drop pos
  | none => text.drop pos

/-- The loop that finds the next `','`.  `rest` is the text from `next` on.  The end of the text reads
as a NUL, and nothing may be read behind it. -/
def nextSep (typeEnd : ℕ) : List Char → ℤ → ℕ → Except Error (ℤ × ℕ)
  | [], _, _ => .error ⟨.undefined, "read behind the end of a string"⟩
  | c :: rest, nestedOpens, next =>
    if c ≠ ',' ∨ 0 < nestedOpens then
      let nestedOpens := step '<' '>' nestedOpens c
      if next + 1 = typeEnd then .ok (nestedOpens, next + 1)
      else nextSep typeEnd rest nestedOpens (next + 1)
    else .ok (nestedOpens, next)

/-- The loop over the children of a map or a struct, from the position `cur` on. -/
def children {β : Type} (child : List Char → Except Error β) (text : List Char) (typeEnd : ℕ) :
    ℕ → ℕ → ℤ → Except Error (List β)
  | 0, _, _ => .error ⟨.diverged, "children"⟩
  | fuel + 1, cur, nestedOpens => do
    let (nestedOpens, next) ← nextSep typeEnd (text.drop cur) nestedOpens cur
    let childType ← child (subText text cur (next - cur))
    if next = typeEnd then return [childType]
    else
      let others ← children child text typeEnd fuel (next + 1) nestedOpens
      return childType :: others

/-- A child of a struct, with the parser for its type -/
def structChild (parse : List Char → Except Error LogicalType) (childStr : List Char) :
    Except Error (String × LogicalType) :=
  match findList [':'] childStr with
  | none => .error ⟨.notImplemented,
      "Invalid struct child type specifier: " ++ String.ofList childStr⟩
  | some typeSep => do
    let childType ← parse (childStr.drop (typeSep + 1))
    return (String.ofList (childStr.take typeSep), childType)

variable (castUInt8 : String → Option (Fin 256))

/-- `Cast::Operation<string_t, uint8_t>` -/
def castOperation (s : List Char) : Except Error ℤ :=
  match castUInt8 (String.ofList s) with
  | some n => .ok n
  | none => .error ⟨.conversion, "Could not convert string '" ++ String.ofList s ++ "' to UINT8"⟩

/-- The `decimal(` case of `TypeToLogicalType`, with the position of its `')'` -/
def decimalType (text : List Char) (specEnd : ℕ) : Except Error LogicalType := do
  let sep := findList [','] text
  let precStr := subUntil text 8 sep
  -- `sep + 1` is zero when there is no separator
  let scaleStr := subUntil text (sep.elim 0 (· + 1)) (some specEnd)
  let prec ← castOperation castUInt8 precStr
  let scale ← castOperation castUInt8 scaleStr
  makeDecimal prec scale

/-- The exception at the end of `TypeToLogicalType` -/
def unknownType (text : List Char) : Except Error LogicalType :=
  .error ⟨.notImplemented,
    "Tried to fallback to unknown type for '" ++ String.ofList text ++ "'"⟩

/-- What `TypeToLogicalType` makes of the types in a map -/
def mapType (keyVal : List LogicalType) : Except Error LogicalType :=
  match keyVal with
  | [key, value] => .ok (.map key value)
  | _ => .error ⟨.notImplemented,
      "Invalid map specification with " ++ toString keyVal.length ++ " types"⟩

/-- `TypeToLogicalType`, with fuel for the types in a type -/
def typeToLogicalTypeFuel : ℕ → List Char → Except Error LogicalType
  | 0, _ => .error ⟨.diverged, "TypeToLogicalType"⟩
  | fuel + 1, text =>
    match primitiveType (String.ofList text) with
    | some id => .ok (.simple id)
    | none =>
      if findList "decimal(".toList text = some 0 then
        match findList [')'] text with
        | some specEnd => decimalType castUInt8 text specEnd
        | none => unknownType text
      else if findList "array<".toList text = some 0 then
        match rfindList ['>'] text with
        | some typeEnd => do
          let childType ← typeToLogicalTypeFuel fuel (subText text 6 (typeEnd - 6))
          return .list childType
        | none => unknownType text
      else if findList "map<".toList text = some 0 then
        match rfindList ['>'] text with
        | some typeEnd => do
          let keyVal ← children (typeToLogicalTypeFuel fuel) text typeEnd (text.length + 1) 4 0
          mapType keyVal
        | none => unknownType text
      else if findList "struct<".toList text = some 0 then
        match rfindList ['>'] text with
        | some typeEnd => do
          let types ← children (structChild (typeToLogicalTypeFuel fuel)) text typeEnd
            (text.length + 1) 7 0
          return .struct types
        | none => unknownType text
      else unknownType text

/-- `ICUtils::TypeToLogicalType` -/
def typeToLogicalType (typeText : String) : Except Error LogicalType :=
  typeToLogicalTypeFuel castUInt8 (typeText.toList.length + 1) typeText.toList

/-! ### The loop over the children -/

/-- The pieces of a text between commas that no angle bracket encloses. -/
abbrev pieces (d : ℤ) (text : List Char) : List (List Char) := cut '<' '>' ',' d text

theorem pieces_cases (d : ℤ) (text : List Char) :
    pieces d text = [text] ∨ ∃ p rest, text = p ++ ',' :: rest ∧ depth '<' '>' d p ≤ 0 ∧
      pieces d p = [p] ∧ pieces d text = p :: pieces (depth '<' '>' d p) rest :=
  cut_cases d text

/-- The body of a map or a struct ends with an empty piece: the loop misses its end there. -/
def EndsEmpty (d : ℤ) (body : List Char) : Prop := (pieces d body).getLast? = some []

instance (d : ℤ) (body : List Char) : Decidable (EndsEmpty d body) :=
  inferInstanceAs (Decidable (_ = _))

/-- The pieces that the loop hands to the parser.  When it misses the end of the body it goes on in
the rest of the text, and takes all pieces of it that a comma ends. -/
def reached (d : ℤ) (body rest : List Char) : List (List Char) :=
  if EndsEmpty d body then
    (pieces d body).dropLast ++ (pieces (depth '<' '>' d body) rest).dropLast
  else pieces d body

/-- The loop reads behind the end of the text. -/
def readBehindEnd {β : Type} : Except Error β :=
  .error ⟨.undefined, "read behind the end of a string"⟩

/-- The loop goes on behind a character that does not cut the text. -/
theorem nextSep_cons {typeEnd : ℕ} {c : Char} {d : ℤ} (hc : ¬ (c = ',' ∧ d ≤ 0)) (rest : List Char)
    (next : ℕ) : nextSep typeEnd (c :: rest) d next =
      if next + 1 = typeEnd then .ok (step '<' '>' d c, next + 1)
      else nextSep typeEnd rest (step '<' '>' d c) (next + 1) := by
  have hcond : c ≠ ',' ∨ 0 < d := by
    by_cases hcomma : c = ','
    · exact Or.inr (by by_contra hle; exact hc ⟨hcomma, by omega⟩)
    · exact Or.inl hcomma
  rw [nextSep, if_pos hcond]

/-- A separator is found that is not hidden by the end of the body. -/
theorem nextSep_sep {typeEnd : ℕ} {p : List Char} {d : ℤ} (hp : pieces d p = [p])
    (hd : depth '<' '>' d p ≤ 0) {next : ℕ} (h : typeEnd ≤ next ∨ next + p.length < typeEnd)
    (rest : List Char) :
    nextSep typeEnd (p ++ ',' :: rest) d next = .ok (depth '<' '>' d p, next + p.length) := by
  induction p generalizing d next with
  | nil =>
    have hcond : ¬ (',' ≠ ',' ∨ 0 < d) := by
      have hd' : d ≤ 0 := hd
      rintro (hne | hlt)
      · exact hne rfl
      · omega
    rw [List.nil_append, nextSep, if_neg hcond]
    rfl
  | cons c p ih =>
    obtain ⟨hc, hp'⟩ := cut_cons_eq_self hp
    rw [List.length_cons] at h
    rw [List.cons_append, nextSep_cons hc, if_neg (by omega), ih hp' hd (by omega),
      List.length_cons, Nat.add_assoc, Nat.add_comm 1]
    rfl

/-- The end of the body is found. -/
theorem nextSep_end {typeEnd : ℕ} {p : List Char} {d : ℤ} (hp : pieces d p = [p]) (hne : p ≠ [])
    {next : ℕ} (h : next + p.length = typeEnd) (rest : List Char) :
    nextSep typeEnd (p ++ rest) d next = .ok (depth '<' '>' d p, typeEnd) := by
  induction p generalizing d next with
  | nil => exact absurd rfl hne
  | cons c p ih =>
    obtain ⟨hc, hp'⟩ := cut_cons_eq_self hp
    rw [List.length_cons] at h
    rw [List.cons_append, nextSep_cons hc]
    by_cases hnil : p = []
    · subst hnil
      rw [List.length_nil] at h
      rw [if_pos (by omega), h]
      rfl
    · have hpos : 0 < p.length := List.length_pos_iff.2 hnil
      rw [if_neg (by omega), ih hp' hnil (by omega)]
      rfl

/-- Behind the end of the body there may be nothing to find. -/
theorem nextSep_over {typeEnd : ℕ} {p : List Char} {d : ℤ} (hp : pieces d p = [p]) {next : ℕ}
    (h : typeEnd ≤ next) : nextSep typeEnd p d next = readBehindEnd := by
  induction p generalizing d next with
  | nil => rfl
  | cons c p ih =>
    obtain ⟨hc, hp'⟩ := cut_cons_eq_self hp
    rw [nextSep_cons hc, if_neg (by omega), ih hp' (by omega)]

section Children

variable {β : Type} {child : List Char → Except Error β}

/-- A round of the loop that ends at a comma. -/
theorem children_sep {text pre p rest : List Char} {typeEnd fuel : ℕ} {d : ℤ}
    (htext : text = pre ++ (p ++ ',' :: rest)) (hp : pieces d p = [p])
    (hd : depth '<' '>' d p ≤ 0)
    (h : typeEnd < pre.length ∨ typeEnd = pre.length ∧ p ≠ [] ∨ pre.length + p.length < typeEnd) :
    children child text typeEnd (fuel + 1) pre.length d = (do
      let x ← child p
      let xs ← children child text typeEnd fuel (pre ++ p ++ [',']).length (depth '<' '>' d p)
      return x :: xs) := by
  have hpos : p ≠ [] → 0 < p.length := List.length_pos_iff.2
  have hdrop : text.drop pre.length = p ++ ',' :: rest := by
    rw [htext, List.drop_left]
  have hsep : nextSep typeEnd (p ++ ',' :: rest) d pre.length =
      .ok (depth '<' '>' d p, pre.length + p.length) := nextSep_sep hp hd (by omega) rest
  have hsub : subText text pre.length (pre.length + p.length - pre.length) = p := by
    rw [subText, hdrop, Nat.add_sub_cancel_left, List.take_left]
  have hnext : (pre ++ p ++ [',']).length = pre.length + p.length + 1 := by
    rw [List.length_append, List.length_append, List.length_singleton]
  have hne : pre.length + p.length ≠ typeEnd := by
    rcases h with hlt | ⟨heq, hnil⟩ | hlt
    · omega
    · have := hpos hnil
      omega
    · omega
  rw [children, hdrop, hsep, hnext]
  change (child (subText text pre.length (pre.length + p.length - pre.length)) >>= fun _ => _) = _
  rw [hsub]
  simp only [if_neg hne]

/-- The loop behind the end of the body. -/
theorem children_over {text : List Char} {typeEnd : ℕ} (pre rest : List Char)
    (htext : text = pre ++ rest) (hend : typeEnd ≤ pre.length)
    (hhead : rest.head? = some ',' → typeEnd ≠ pre.length)
    {fuel : ℕ} (hfuel : rest.length < fuel) (d : ℤ) :
    children child text typeEnd fuel pre.length d = (do
      let _ ← (pieces d rest).dropLast.mapM child
      readBehindEnd) := by
  induction fuel generalizing pre rest d with
  | zero => omega
  | succ fuel ih =>
    rcases pieces_cases d rest with hwhole | ⟨p, rest', rfl, hd, hp, hcut⟩
    · rw [children, htext, List.drop_left, nextSep_over hwhole hend, hwhole]
      rfl
    · have hlast : typeEnd < pre.length ∨ typeEnd = pre.length ∧ p ≠ [] := by
        by_cases heq : typeEnd = pre.length
        · refine Or.inr ⟨heq, ?_⟩
          rintro rfl
          exact hhead rfl heq
        · omega
      have hnext : typeEnd < (pre ++ p ++ [',']).length := by
        simp only [List.length_append, List.length_singleton]
        omega
      rw [List.length_append, List.length_cons] at hfuel
      have hrest := ih (pre ++ p ++ [',']) rest' (by rw [htext]; simp) (by omega)
        (fun _ => by omega) (by omega) (depth '<' '>' d p)
      have hclass : typeEnd < pre.length ∨ typeEnd = pre.length ∧ p ≠ [] ∨
          pre.length + p.length < typeEnd := hlast.imp_right Or.inl
      rw [children_sep htext hp hd hclass, hrest, hcut,
        List.dropLast_cons_of_ne_nil (cut_ne_nil _ _), List.mapM_cons]
      simp only [bind_assoc, pure_bind]
      rfl

/-- **The loop over the children** hands the pieces of the body to the parser; when the body ends with
an empty piece, it goes on behind the body and reads behind the end of the text. -/
theorem children_eq {text rest : List Char} {typeEnd : ℕ} (pre body : List Char)
    (htext : text = pre ++ (body ++ rest)) (hend : typeEnd = pre.length + body.length)
    (hhead : rest.head? ≠ some ',') {fuel : ℕ} (hfuel : body.length + rest.length < fuel) (d : ℤ) :
    children child text typeEnd fuel pre.length d = (do
      let xs ← (reached d body rest).mapM child
      if EndsEmpty d body then readBehindEnd else return xs) := by
  induction fuel generalizing pre body d with
  | zero => omega
  | succ fuel ih =>
    rcases pieces_cases d body with hwhole | ⟨p, body', rfl, hd, hp, hcut⟩
    · by_cases hnil : body = []
      · -- the loop starts at the end of the body, and misses it
        subst hnil
        have hempty : EndsEmpty d [] := rfl
        rw [children_over pre rest (by simpa using htext) (by simpa using hend.le)
          (fun h => absurd h hhead) (by simpa using hfuel), reached, if_pos hempty]
        simp only [if_pos hempty]
        rfl
      · have hempty : ¬ EndsEmpty d body := by
          rw [EndsEmpty, hwhole]
          simpa using hnil
        have hdrop : text.drop pre.length = body ++ rest := by
          rw [htext, List.drop_left]
        have hsub : subText text pre.length (typeEnd - pre.length) = body := by
          rw [subText, hdrop, hend, Nat.add_sub_cancel_left, List.take_left]
        rw [children, hdrop, nextSep_end hwhole hnil hend.symm, reached, if_neg hempty,
          hwhole, List.mapM_cons]
        change (child (subText text pre.length (typeEnd - pre.length)) >>= fun _ => _) = _
        rw [hsub]
        simp only [if_neg hempty, if_true, List.mapM_nil, bind_assoc, pure_bind]
    · have hempty : EndsEmpty d (p ++ ',' :: body') ↔ EndsEmpty (depth '<' '>' d p) body' := by
        rw [EndsEmpty, EndsEmpty, hcut, List.getLast?_cons_of_ne_nil (cut_ne_nil _ _)]
      have hdepth : depth '<' '>' d (p ++ ',' :: body') =
          depth '<' '>' (depth '<' '>' d p) body' := by
        rw [depth_append]
        rfl
      have hreached : reached d (p ++ ',' :: body') rest =
          p :: reached (depth '<' '>' d p) body' rest := by
        rw [reached, reached, hdepth]
        simp only [hempty]
        split_ifs
        · rw [hcut, List.dropLast_cons_of_ne_nil (cut_ne_nil _ _), List.cons_append]
        · rw [hcut]
      simp only [List.length_append, List.length_cons] at hfuel hend
      have hrest := ih (pre ++ p ++ [',']) body' (by rw [htext]; simp)
        (by simp only [List.length_append, List.length_singleton]; omega) (by omega)
        (depth '<' '>' d p)
      rw [children_sep (show text = pre ++ (p ++ ',' :: (body' ++ rest)) by rw [htext]; simp) hp hd
        (by omega), hrest, hreached, List.mapM_cons]
      simp only [hempty, bind_assoc, pure_bind]
      split_ifs <;> rfl

end Children

/-! ### Kinds of texts -/

theorem mem_of_primitiveType {s : String} {id : LogicalTypeId} (h : primitiveType s = some id) :
    (s, id) ∈ primitiveTypes := by
  obtain ⟨⟨s', id'⟩, hfind, rfl⟩ := Option.map_eq_some_iff.1 h
  have hs : s' = s := by simpa using List.find?_some hfind
  subst hs
  exact List.mem_of_find?_eq_some hfind

/-- The texts that the parser compares with are letters only. -/
theorem letters_of_mem {entry : String × LogicalTypeId} (h : entry ∈ primitiveTypes) :
    ∀ c ∈ entry.1.toList, c.isAlpha = true := by
  have hall : ∀ entry ∈ primitiveTypes, entry.1.toList.all Char.isAlpha = true := by decide
  exact List.all_eq_true.1 (hall entry h)

theorem primitiveType_letters {s : String} {id : LogicalTypeId} (h : primitiveType s = some id) :
    ∀ c ∈ s.toList, c.isAlpha = true :=
  letters_of_mem (mem_of_primitiveType h)

theorem primitiveType_of_mem {s : List Char} {c : Char} (hc : c.isAlpha = false) (h : c ∈ s) :
    primitiveType (String.ofList s) = none := by
  cases hprim : primitiveType (String.ofList s) with
  | none => rfl
  | some id =>
    have hletter := primitiveType_letters hprim c (by rwa [String.toList_ofList])
    rw [hc] at hletter
    cases hletter

theorem find_keyword {pat text : List Char} (hpat : pat ≠ []) :
    findList pat (pat ++ text) = some 0 :=
  (findList_eq_zero_iff hpat).2 (List.prefix_append _ _)

theorem find_other_keyword {pat pat' text : List Char} (hpat : pat ≠ []) (h : ¬ pat <+: pat')
    (h' : ¬ pat' <+: pat) : findList pat (pat' ++ text) ≠ some 0 := by
  intro hfind
  rcases List.prefix_or_prefix_of_prefix ((findList_eq_zero_iff hpat).1 hfind)
    (List.prefix_append pat' text) with hpre | hpre
  · exact h hpre
  · exact h' hpre

/-- The last bracket of a text. -/
theorem rfind_bracket {keyword body junk : List Char} (hj : '>' ∉ junk) :
    rfindList ['>'] (keyword ++ (body ++ '>' :: junk)) = some (keyword.length + body.length) := by
  rw [← List.append_assoc, rfindList_char hj, List.length_append]

/-- The types of the children of a map or a struct. -/
def childTypes {β : Type} (child : List Char → Except Error β) (body junk : List Char) :
    Except Error (List β) := do
  let xs ← (reached 0 body ('>' :: junk)).mapM child
  if EndsEmpty 0 body then readBehindEnd else return xs

theorem children_body {β : Type} (child : List Char → Except Error β)
    (keyword body junk : List Char) :
    children child (keyword ++ (body ++ '>' :: junk)) (keyword.length + body.length)
      ((keyword ++ (body ++ '>' :: junk)).length + 1) keyword.length 0 =
        childTypes child body junk := by
  have hhead : ('>' :: junk).head? ≠ some ',' := by
    intro h
    exact absurd (Option.some.inj h) (by decide)
  refine children_eq keyword body rfl rfl hhead ?_ 0
  simp only [List.length_append]
  omega

section Kinds

variable (fuel : ℕ) {junk : List Char}

/-- The text of an array is parsed up to its last bracket. -/
theorem typeToLogicalTypeFuel_array (hj : '>' ∉ junk) (c : List Char) :
    typeToLogicalTypeFuel castUInt8 (fuel + 1) ("array<".toList ++ (c ++ '>' :: junk)) = (do
      let childType ← typeToLogicalTypeFuel castUInt8 fuel c
      return .list childType) := by
  have hprim : primitiveType (String.ofList ("array<".toList ++ (c ++ '>' :: junk))) = none :=
    primitiveType_of_mem (c := '<') (by decide) (by simp)
  have hsub : subText ("array<".toList ++ (c ++ '>' :: junk)) 6
      ("array<".toList.length + c.length - 6) = c := by
    have hlen : "array<".toList.length + c.length - 6 = c.length := Nat.add_sub_cancel_left 6 _
    have hdrop : ("array<".toList ++ (c ++ '>' :: junk)).drop 6 = c ++ '>' :: junk := rfl
    rw [subText, hlen, hdrop, List.take_left]
  rw [typeToLogicalTypeFuel, hprim]
  dsimp only
  rw [if_neg (find_other_keyword (by decide) (by decide) (by decide)),
    if_pos (find_keyword (by decide)), rfind_bracket hj]
  dsimp only
  rw [hsub]

/-- The text of a map. -/
theorem typeToLogicalTypeFuel_map (hj : '>' ∉ junk) (body : List Char) :
    typeToLogicalTypeFuel castUInt8 (fuel + 1) ("map<".toList ++ (body ++ '>' :: junk)) = (do
      let keyVal ← childTypes (typeToLogicalTypeFuel castUInt8 fuel) body junk
      mapType keyVal) := by
  have hprim : primitiveType (String.ofList ("map<".toList ++ (body ++ '>' :: junk))) = none :=
    primitiveType_of_mem (c := '<') (by decide) (by simp)
  rw [typeToLogicalTypeFuel, hprim]
  dsimp only
  rw [if_neg (find_other_keyword (by decide) (by decide) (by decide)),
    if_neg (find_other_keyword (by decide) (by decide) (by decide)),
    if_pos (find_keyword (by decide)), rfind_bracket hj]
  exact congrArg (· >>= mapType) (children_body _ "map<".toList body junk)

/-- The text of a struct. -/
theorem typeToLogicalTypeFuel_struct (hj : '>' ∉ junk) (body : List Char) :
    typeToLogicalTypeFuel castUInt8 (fuel + 1) ("struct<".toList ++ (body ++ '>' :: junk)) = (do
      let types ← childTypes (structChild (typeToLogicalTypeFuel castUInt8 fuel)) body junk
      return .struct types) := by
  have hprim : primitiveType (String.ofList ("struct<".toList ++ (body ++ '>' :: junk))) = none :=
    primitiveType_of_mem (c := '<') (by decide) (by simp)
  rw [typeToLogicalTypeFuel, hprim]
  dsimp only
  rw [if_neg (find_other_keyword (by decide) (by decide) (by decide)),
    if_neg (find_other_keyword (by decide) (by decide) (by decide)),
    if_neg (find_other_keyword (by decide) (by decide) (by decide)),
    if_pos (find_keyword (by decide)), rfind_bracket hj]
  exact congrArg (· >>= fun types => pure (LogicalType.struct types))
    (children_body _ "struct<".toList body junk)

/-- The text of a decimal type, up to its first closing parenthesis. -/
theorem typeToLogicalTypeFuel_decimal {a : List Char} (ha : ')' ∉ a) (junk : List Char) :
    typeToLogicalTypeFuel castUInt8 (fuel + 1) ("decimal(".toList ++ (a ++ ')' :: junk)) =
      decimalType castUInt8 ("decimal(".toList ++ (a ++ ')' :: junk))
        ("decimal(".toList.length + a.length) := by
  have hprim : primitiveType (String.ofList ("decimal(".toList ++ (a ++ ')' :: junk))) = none :=
    primitiveType_of_mem (c := '(') (by decide) (by simp)
  have hend : findList [')'] ("decimal(".toList ++ (a ++ ')' :: junk)) =
      some ("decimal(".toList.length + a.length) := by
    have hnot : ')' ∉ "decimal(".toList ++ a := by
      rw [List.mem_append, not_or]
      exact ⟨by decide, ha⟩
    rw [← List.append_assoc, findList_char hnot, List.length_append]
  rw [typeToLogicalTypeFuel, hprim]
  dsimp only
  rw [if_pos (find_keyword (by decide)), hend]

/-- What stands between the parentheses is cut at its comma. -/
theorem decimalType_comma {w s : List Char} (hw : ',' ∉ w) (junk : List Char) :
    decimalType castUInt8 ("decimal(".toList ++ (w ++ ',' :: s ++ ')' :: junk))
      ("decimal(".toList.length + (w ++ ',' :: s).length) = (do
        let prec ← castOperation castUInt8 w
        let scale ← castOperation castUInt8 s
        makeDecimal prec scale) := by
  set text := "decimal(".toList ++ (w ++ ',' :: s ++ ')' :: junk) with htext
  have hsep : findList [','] text = some (8 + w.length) := by
    have hnot : ',' ∉ "decimal(".toList ++ w := by
      rw [List.mem_append, not_or]
      exact ⟨by decide, hw⟩
    have hlist : text = ("decimal(".toList ++ w) ++ ',' :: (s ++ ')' :: junk) := by
      simp [htext]
    rw [hlist, findList_char hnot, List.length_append]
    rfl
  have hdrop : text.drop 8 = w ++ (',' :: s ++ ')' :: junk) := by
    rw [htext, List.append_assoc]
    rfl
  have hdrop' : text.drop (8 + w.length + 1) = s ++ ')' :: junk := by
    rw [Nat.add_assoc, ← List.drop_drop, hdrop, ← List.drop_drop, List.drop_left]
    rfl
  have hprec : subUntil text 8 (some (8 + w.length)) = w := by
    rw [subUntil, if_pos (by omega), subText, hdrop, Nat.add_sub_cancel_left, List.take_left]
  have hscale : subUntil text (8 + w.length + 1)
      (some ("decimal(".toList.length + (w ++ ',' :: s).length)) = s := by
    have hlen : "decimal(".toList.length + (w ++ ',' :: s).length = 8 + w.length + 1 + s.length := by
      rw [List.length_append, List.length_cons]
      change 8 + (w.length + (s.length + 1)) = _
      omega
    rw [hlen, subUntil, if_pos (by omega), subText, hdrop', Nat.add_sub_cancel_left,
      List.take_left]
  rw [decimalType, hsep]
  simp only [Option.elim_some, hprec, hscale]

/-- Without a comma before the parenthesis, the precision is a text with a parenthesis in it. -/
theorem decimalType_noComma {a : List Char} (ha : ',' ∉ a) (junk : List Char)
    (hcast : ∀ s : String, ')' ∈ s.toList → castUInt8 s = none) (specEnd : ℕ) :
    ∃ message, decimalType castUInt8 ("decimal(".toList ++ (a ++ ')' :: junk)) specEnd =
      .error ⟨.conversion, message⟩ := by
  set text := "decimal(".toList ++ (a ++ ')' :: junk) with htext
  have hdrop : text.drop 8 = a ++ ')' :: junk := rfl
  have hprec : ')' ∈ subUntil text 8 (findList [','] text) := by
    rcases findList_cases ',' text with ⟨-, hfind⟩ | ⟨u, v, huv, hu, hfind⟩
    · rw [hfind, subUntil, hdrop]
      simp
    · -- the comma stands behind the parenthesis
      have hnot : ',' ∉ "decimal(".toList ++ (a ++ [')']) := by
        simp only [List.mem_append, not_or]
        exact ⟨by decide, ha, by decide⟩
      obtain ⟨e, rfl⟩ : ∃ e, u = "decimal(".toList ++ (a ++ [')']) ++ e := by
        have heq : "decimal(".toList ++ (a ++ [')']) ++ junk = u ++ ',' :: v := by
          rw [← huv, htext]
          simp
        rcases List.append_eq_append_iff.1 heq with ⟨e, hu', -⟩ | ⟨e, hk, hv⟩
        · exact ⟨e, hu'⟩
        · cases e with
          | nil => exact ⟨[], by rw [hk]; simp⟩
          | cons c e =>
            have hc : ',' = c := (List.cons.inj hv).1
            subst hc
            exact absurd (by rw [hk]; simp) hnot
      have hdrop' : text.drop 8 = (a ++ ')' :: e) ++ ',' :: v := by
        rw [huv, List.append_assoc, List.append_assoc]
        change a ++ [')'] ++ (e ++ ',' :: v) = _
        simp
      have hlen : ("decimal(".toList ++ (a ++ [')']) ++ e).length = 8 + (a ++ ')' :: e).length := by
        simp only [List.length_append, List.length_cons, List.length_nil]
        change 8 + (a.length + (0 + 1)) + e.length = _
        omega
      rw [hfind, hlen, subUntil, if_pos (by omega), subText, hdrop', Nat.add_sub_cancel_left,
        List.take_left]
      simp
  have hnone : castUInt8 (String.ofList (subUntil text 8 (findList [','] text))) = none :=
    hcast _ (by rwa [String.toList_ofList])
  have hfail : castOperation castUInt8 (subUntil text 8 (findList [','] text)) =
      .error ⟨.conversion, "Could not convert string '" ++
        String.ofList (subUntil text 8 (findList [','] text)) ++ "' to UINT8"⟩ := by
    rw [castOperation, hnone]
  refine ⟨"Could not convert string '" ++
    String.ofList (subUntil text 8 (findList [','] text)) ++ "' to UINT8", ?_⟩
  rw [decimalType, hfail]
  rfl

end Kinds

/-- What a text begins with, and whether it is closed, says how it is parsed. -/
inductive TextKind : List Char → Prop
  | primitive {text : List Char} {id : LogicalTypeId}
      (h : primitiveType (String.ofList text) = some id) : TextKind text
  | decimal {a : List Char} (ha : ')' ∉ a) (junk : List Char) :
      TextKind ("decimal(".toList ++ (a ++ ')' :: junk))
  | array (c : List Char) {junk : List Char} (hj : '>' ∉ junk) :
      TextKind ("array<".toList ++ (c ++ '>' :: junk))
  | map (body : List Char) {junk : List Char} (hj : '>' ∉ junk) :
      TextKind ("map<".toList ++ (body ++ '>' :: junk))
  | struct (body : List Char) {junk : List Char} (hj : '>' ∉ junk) :
      TextKind ("struct<".toList ++ (body ++ '>' :: junk))
  | unknown {text : List Char}
      (h : ∀ fuel, typeToLogicalTypeFuel castUInt8 (fuel + 1) text = unknownType text) :
      TextKind text

/-- A text with a keyword that is not closed is unknown. -/
theorem unknown_of_notMem {keyword rest : List Char}
    (hkey : keyword ∈ ["array<".toList, "map<".toList, "struct<".toList]) (hrest : '>' ∉ rest)
    (hprim : primitiveType (String.ofList (keyword ++ rest)) = none) (fuel : ℕ) :
    typeToLogicalTypeFuel castUInt8 (fuel + 1) (keyword ++ rest) = unknownType (keyword ++ rest) := by
  have hnone : rfindList ['>'] (keyword ++ rest) = none := by
    refine rfindList_none ?_
    rw [List.mem_append, not_or]
    refine ⟨?_, hrest⟩
    simp only [List.mem_cons, List.not_mem_nil, or_false] at hkey
    rcases hkey with rfl | rfl | rfl <;> decide
  have hdecimal : findList "decimal(".toList (keyword ++ rest) ≠ some 0 := by
    simp only [List.mem_cons, List.not_mem_nil, or_false] at hkey
    rcases hkey with rfl | rfl | rfl <;>
      exact find_other_keyword (by decide) (by decide) (by decide)
  rw [typeToLogicalTypeFuel, hprim, hnone]
  dsimp only
  rw [if_neg hdecimal]
  split_ifs <;> rfl

/-- A decimal type that is not closed is unknown. -/
theorem unknown_decimal {rest : List Char} (hrest : ')' ∉ rest) (fuel : ℕ) :
    typeToLogicalTypeFuel castUInt8 (fuel + 1) ("decimal(".toList ++ rest) =
      unknownType ("decimal(".toList ++ rest) := by
  have hprim : primitiveType (String.ofList ("decimal(".toList ++ rest)) = none :=
    primitiveType_of_mem (c := '(') (by decide) (by simp)
  have hnone : findList [')'] ("decimal(".toList ++ rest) = none := by
    refine findList_none ?_
    rw [List.mem_append, not_or]
    exact ⟨by decide, hrest⟩
  rw [typeToLogicalTypeFuel, hprim, hnone]
  dsimp only
  rw [if_pos (find_keyword (by decide))]

/-- The words that the parser looks for at the beginning of a text. -/
def keywords : List (List Char) :=
  ["decimal(".toList, "array<".toList, "map<".toList, "struct<".toList]

/-- A text that begins with none of the keywords is unknown. -/
theorem unknown_of_noKeyword {text : List Char} (hprim : primitiveType (String.ofList text) = none)
    (h : ∀ keyword ∈ keywords, ¬ keyword <+: text) (fuel : ℕ) :
    typeToLogicalTypeFuel castUInt8 (fuel + 1) text = unknownType text := by
  have hnot : ∀ keyword ∈ keywords, findList keyword text ≠ some 0 := by
    intro keyword hkey hfind
    have hne : keyword ≠ [] := by
      rintro rfl
      exact absurd hkey (by decide)
    exact h keyword hkey ((findList_eq_zero_iff hne).1 hfind)
  rw [typeToLogicalTypeFuel, hprim]
  dsimp only
  rw [if_neg (hnot _ (by simp [keywords])), if_neg (hnot _ (by simp [keywords])),
    if_neg (hnot _ (by simp [keywords])), if_neg (hnot _ (by simp [keywords]))]

theorem textKind (text : List Char) : TextKind castUInt8 text := by
  cases hprim : primitiveType (String.ofList text) with
  | some id => exact .primitive hprim
  | none =>
    by_cases hdecimal : "decimal(".toList <+: text
    · obtain ⟨rest, rfl⟩ := hdecimal
      rcases findList_cases ')' rest with ⟨hrest, -⟩ | ⟨a, junk, rfl, ha, -⟩
      · exact .unknown (unknown_decimal castUInt8 hrest)
      · exact .decimal ha junk
    by_cases harray : "array<".toList <+: text
    · obtain ⟨rest, rfl⟩ := harray
      rcases rfindList_cases '>' rest with ⟨hrest, -⟩ | ⟨c, junk, rfl, hj, -⟩
      · exact .unknown (unknown_of_notMem castUInt8 (by simp) hrest hprim)
      · exact .array c hj
    by_cases hmap : "map<".toList <+: text
    · obtain ⟨rest, rfl⟩ := hmap
      rcases rfindList_cases '>' rest with ⟨hrest, -⟩ | ⟨body, junk, rfl, hj, -⟩
      · exact .unknown (unknown_of_notMem castUInt8 (by simp) hrest hprim)
      · exact .map body hj
    by_cases hstruct : "struct<".toList <+: text
    · obtain ⟨rest, rfl⟩ := hstruct
      rcases rfindList_cases '>' rest with ⟨hrest, -⟩ | ⟨body, junk, rfl, hj, -⟩
      · exact .unknown (unknown_of_notMem castUInt8 (by simp) hrest hprim)
      · exact .struct body hj
    refine .unknown (unknown_of_noKeyword castUInt8 hprim ?_)
    simp only [keywords, List.forall_mem_cons]
    exact ⟨hdecimal, harray, hmap, hstruct, nofun⟩

end ICUtils

end DuckIceberg
