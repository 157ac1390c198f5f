import DuckIceberg.Catalog.LenientTypes

/-!
# Where the parser of types reads

`TypeToLogicalType` reads the text by its index in the loops over the children of a map or struct, and
takes parts of it by `substr`.  `typeReads` are these positions, in their order, at every level of the
recursion.

* `nextSepReads_bounded`: a search for the next comma that starts before the end of the body stays
  before it;
* `strays_children`: so the loop strays when a child does, or when it starts a child at the end;
* `safe_iff`: the texts on which the parser stays inside and returns or throws.
-/

namespace DuckIceberg

open Strings Cut

namespace ICUtils

/-! ### Positions -/

/-- A position in a text of this size: one that a loop reads, which is to stop at `typeEnd`, or one at
which a part begins. -/
inductive Access
  | read (size typeEnd index : ℕ)
  | substr (size start : ℕ)
  deriving DecidableEq

/-- The position is inside the text, and not behind the end of the loop. -/
def Access.InBounds : Access → Prop
  | .read size typeEnd index => index < size ∧ index ≤ typeEnd
  | .substr size start => start ≤ size

/-- The positions that the loop of `nextSep` reads. -/
def nextSepReads (typeEnd : ℕ) : List Char → ℤ → ℕ → List ℕ
  | [], _, next => [next]
  | c :: rest, nestedOpens, next =>
    next ::
      if c ≠ ',' ∨ 0 < nestedOpens then
        if next + 1 = typeEnd then []
        else nextSepReads typeEnd rest (step '<' '>' nestedOpens c) (next + 1)
      else []

/-- The positions of the loop over the children. -/
def childrenReads {β : Type} (child : List Char → Except Error β)
    (childReads : List Char → List Access) (text : List Char) (typeEnd : ℕ) :
    ℕ → ℕ → ℤ → List Access
  | 0, _, _ => []
  | fuel + 1, cur, nestedOpens =>
    (nextSepReads typeEnd (text.drop cur) nestedOpens cur).map (.read text.length typeEnd) ++
      match nextSep typeEnd (text.drop cur) nestedOpens cur with
      | .error _ => []
      | .ok (nestedOpens, next) =>
        .substr text.length cur :: childReads (subText text cur (next - cur)) ++
          match child (subText text cur (next - cur)) with
          | .error _ => []
          | .ok _ =>
            if next = typeEnd then []
            else childrenReads child childReads text typeEnd fuel (next + 1) nestedOpens

/-- The positions of a child of a struct. -/
def structChildReads (reads : List Char → List Access) (childStr : List Char) : List Access :=
  match findList [':'] childStr with
  | none => []
  | some typeSep =>
    .substr childStr.length 0 :: .substr childStr.length (typeSep + 1) ::
      reads (childStr.drop (typeSep + 1))

variable (castUInt8 : String → Option (Fin 256))

/-- The positions of `typeToLogicalTypeFuel`. -/
def typeReadsFuel : ℕ → List Char → List Access
  | 0, _ => []
  | fuel + 1, text =>
    match primitiveType (String.ofList text) with
    | some _ => []
    | none =>
      if findList "decimal(".toList text = some 0 then
        match findList [')'] text with
        | some _ =>
          [.substr text.length 8, .substr text.length ((findList [','] text).elim 0 (· + 1))]
        | none => []
      else if findList "array<".toList text = some 0 then
        match rfindList ['>'] text with
        | some typeEnd => .substr text.length 6 :: typeReadsFuel fuel (subText text 6 (typeEnd - 6))
        | none => []
      else if findList "map<".toList text = some 0 then
        match rfindList ['>'] text with
        | some typeEnd =>
          childrenReads (typeToLogicalTypeFuel castUInt8 fuel) (typeReadsFuel fuel) text typeEnd
            (text.length + 1) 4 0
        | none => []
      else if findList "struct<".toList text = some 0 then
        match rfindList ['>'] text with
        | some typeEnd =>
          childrenReads (structChild (typeToLogicalTypeFuel castUInt8 fuel))
            (structChildReads (typeReadsFuel fuel)) text typeEnd (text.length + 1) 7 0
        | none => []
      else []

/-- The positions at which `TypeToLogicalType` reads. -/
def typeReads (typeText : String) : List Access :=
  typeReadsFuel castUInt8 (typeText.toList.length + 1) typeText.toList

/-- One of the positions is out of bounds. -/
def Strays (accesses : List Access) : Prop := ∃ a ∈ accesses, ¬ a.InBounds

theorem strays_append {l l' : List Access} : Strays (l ++ l') ↔ Strays l ∨ Strays l' := by
  simp only [Strays, List.mem_append, or_and_right, exists_or]

theorem strays_cons {a : Access} {l : List Access} : Strays (a :: l) ↔ ¬ a.InBounds ∨ Strays l := by
  simp only [Strays, List.mem_cons, or_and_right, exists_or, exists_eq_left]

theorem not_strays_nil : ¬ Strays [] := by
  rintro ⟨a, ha, -⟩
  cases ha

/-! ### The loop over the children -/

/-- A search that starts before the end of the body stays before it. -/
theorem nextSepReads_bounded {typeEnd : ℕ} {rest : List Char} {next : ℕ} (hnext : next < typeEnd)
    (hend : typeEnd ≤ next + rest.length) (d : ℤ) :
    ∀ i ∈ nextSepReads typeEnd rest d next, i < typeEnd := by
  induction rest generalizing next d with
  | nil =>
    rw [List.length_nil] at hend
    omega
  | cons c rest ih =>
    rw [List.length_cons] at hend
    rw [nextSepReads, List.forall_mem_cons]
    refine ⟨hnext, ?_⟩
    split_ifs with hcond hstop
    · exact List.forall_mem_nil _
    · exact ih (by omega) (by omega) _
    · exact List.forall_mem_nil _

/-- A search that starts at the end of the body reads behind it. -/
theorem nextSepReads_over (typeEnd : ℕ) (junk : List Char) (d : ℤ) :
    typeEnd + 1 ∈ nextSepReads typeEnd ('>' :: junk) d typeEnd := by
  have hhead : ∀ d', typeEnd + 1 ∈ nextSepReads typeEnd junk d' (typeEnd + 1) := by
    intro d'
    cases junk with
    | nil => exact List.mem_cons_self
    | cons c junk => exact List.mem_cons_self
  rw [nextSepReads, if_pos (Or.inl (by decide)), if_neg (by omega)]
  exact List.mem_cons_of_mem _ (hhead _)

section Children

variable {β : Type} {child : List Char → Except Error β} {childReads : List Char → List Access}

/-- The positions of a search that starts before the end of the body are in bounds. -/
theorem not_strays_reads {text : List Char} {typeEnd cur : ℕ} (hcur : cur < typeEnd)
    (hend : typeEnd ≤ text.length) (d : ℤ) :
    ¬ Strays ((nextSepReads typeEnd (text.drop cur) d cur).map (.read text.length typeEnd)) := by
  rintro ⟨a, ha, hstray⟩
  obtain ⟨i, hi, rfl⟩ := List.mem_map.1 ha
  have hlt := nextSepReads_bounded hcur (by rw [List.length_drop]; omega) d i hi
  exact hstray ⟨by omega, by omega⟩

/-- The loop strays as it starts a child at the end of the body. -/
theorem strays_over {pre junk : List Char} {fuel : ℕ} {d : ℤ} :
    Strays (childrenReads child childReads (pre ++ '>' :: junk) pre.length (fuel + 1) pre.length
      d) := by
  refine ⟨.read (pre ++ '>' :: junk).length pre.length (pre.length + 1), ?_, ?_⟩
  · rw [childrenReads, List.drop_left]
    exact List.mem_append_left _ (List.mem_map_of_mem (nextSepReads_over _ _ _))
  · rintro ⟨-, hle⟩
    omega

/-- A round that ends at a comma of the body. -/
theorem strays_sep {text pre p rest : List Char} {typeEnd fuel : ℕ} {d : ℤ}
    (htext : text = pre ++ (p ++ ',' :: rest)) (hp : pieces d p = [p])
    (hd : depth '<' '>' d p ≤ 0) (hlt : pre.length + p.length < typeEnd)
    (hend : typeEnd ≤ text.length) :
    Strays (childrenReads child childReads text typeEnd (fuel + 1) pre.length d) ↔
      Strays (childReads p) ∨ (∃ y, child p = .ok y) ∧
        Strays (childrenReads child childReads text typeEnd fuel (pre ++ p ++ [',']).length
          (depth '<' '>' d p)) := by
  have hdrop : text.drop pre.length = p ++ ',' :: rest := by
    rw [htext, List.drop_left]
  have hsep : nextSep typeEnd (text.drop pre.length) d pre.length =
      .ok (depth '<' '>' d p, pre.length + p.length) := by
    rw [hdrop]
    exact nextSep_sep hp hd (Or.inr hlt) rest
  have hsub : subText text pre.length (pre.length + p.length - pre.length) = p := by
    rw [subText, hdrop, Nat.add_sub_cancel_left, List.take_left]
  have hnext : (pre ++ p ++ [',']).length = pre.length + p.length + 1 := by
    rw [List.length_append, List.length_append, List.length_singleton]
  have hreads := not_strays_reads (show pre.length < typeEnd by omega) hend d
  have hstart : (Access.substr text.length pre.length).InBounds := by
    show pre.length ≤ text.length
    omega
  rw [childrenReads, hsep, strays_append, or_iff_right hreads, hnext]
  dsimp only
  rw [hsub, List.cons_append, strays_cons, or_iff_right (not_not_intro hstart), strays_append]
  refine or_congr_right ?_
  cases hchild : child p with
  | error e =>
    refine iff_of_false not_strays_nil ?_
    rintro ⟨⟨y, hy⟩, -⟩
    cases hy
  | ok y =>
    dsimp only
    rw [if_neg (show ¬ pre.length + p.length = typeEnd by omega)]
    exact (and_iff_right ⟨y, rfl⟩).symm

/-- A round that ends at the end of the body. -/
theorem strays_end {text pre p rest : List Char} {typeEnd fuel : ℕ} {d : ℤ}
    (htext : text = pre ++ (p ++ rest)) (hp : pieces d p = [p]) (hne : p ≠ [])
    (hend : pre.length + p.length = typeEnd) :
    Strays (childrenReads child childReads text typeEnd (fuel + 1) pre.length d) ↔
      Strays (childReads p) := by
  have hpos : 0 < p.length := List.length_pos_iff.2 hne
  have hdrop : text.drop pre.length = p ++ rest := by
    rw [htext, List.drop_left]
  have hstop : nextSep typeEnd (text.drop pre.length) d pre.length =
      .ok (depth '<' '>' d p, typeEnd) := by
    rw [hdrop]
    exact nextSep_end hp hne hend rest
  have hsub : subText text pre.length (typeEnd - pre.length) = p := by
    rw [subText, hdrop, ← hend, Nat.add_sub_cancel_left, List.take_left]
  have hlen : typeEnd ≤ text.length := by
    rw [htext, List.length_append, List.length_append]
    omega
  have hreads := not_strays_reads (show pre.length < typeEnd by omega) hlen d
  have hstart : (Access.substr text.length pre.length).InBounds := by
    show pre.length ≤ text.length
    omega
  rw [childrenReads, hstop, strays_append, or_iff_right hreads]
  dsimp only
  rw [hsub, List.cons_append, strays_cons, or_iff_right (not_not_intro hstart), strays_append]
  refine or_iff_left ?_
  cases child p with
  | error e => exact not_strays_nil
  | ok y =>
    dsimp only
    rw [if_pos rfl]
    exact not_strays_nil

/-- One of the pieces strays, and those before it are in order. -/
def StraysIn (child : List Char → Except Error β) (childReads : List Char → List Access)
    (ps : List (List Char)) : Prop :=
  ∃ pre p post, ps = pre ++ p :: post ∧ (∀ x ∈ pre, ∃ y, child x = .ok y) ∧ Strays (childReads p)

theorem straysIn_cons {p : List Char} {ps : List (List Char)} :
    StraysIn child childReads (p :: ps) ↔
      Strays (childReads p) ∨ (∃ y, child p = .ok y) ∧ StraysIn child childReads ps := by
  constructor
  · rintro ⟨pre, q, post, heq, hpre, hq⟩
    cases pre with
    | nil =>
      obtain ⟨rfl, -⟩ := List.cons.inj heq
      exact Or.inl hq
    | cons x pre =>
      obtain ⟨rfl, rfl⟩ := List.cons.inj heq
      exact Or.inr ⟨hpre p List.mem_cons_self,
        pre, q, post, rfl, fun x hx => hpre x (List.mem_cons_of_mem _ hx), hq⟩
  · rintro (hp | ⟨hp, pre, q, post, rfl, hpre, hq⟩)
    · exact ⟨[], p, ps, rfl, List.forall_mem_nil _, hp⟩
    · exact ⟨p :: pre, q, post, rfl, List.forall_mem_cons.2 ⟨hp, hpre⟩, hq⟩

/-- **The loop over the children** strays as one of them does, or as it starts one at the end of the
body. -/
theorem strays_children {text junk : List Char} {typeEnd : ℕ} (pre body : List Char)
    (htext : text = pre ++ (body ++ '>' :: junk)) (hend : typeEnd = pre.length + body.length)
    {fuel : ℕ} (hfuel : body.length < fuel) (d : ℤ) :
    Strays (childrenReads child childReads text typeEnd fuel pre.length d) ↔
      EndsEmpty d body ∧ (∀ x ∈ (pieces d body).dropLast, ∃ y, child x = .ok y) ∨
        StraysIn child childReads (pieces d body) := by
  induction fuel generalizing pre body d with
  | zero => omega
  | succ fuel ih =>
    rcases pieces_cases d body with hwhole | ⟨p, body', rfl, hd, hp, hcut⟩
    · by_cases hnil : body = []
      · subst hnil
        rw [List.nil_append] at htext
        rw [List.length_nil, Nat.add_zero] at hend
        subst htext hend
        exact iff_of_true strays_over (Or.inl ⟨rfl, List.forall_mem_nil _⟩)
      · have hempty : ¬ EndsEmpty d body := by
          rw [EndsEmpty, hwhole]
          simpa using hnil
        rw [strays_end htext hwhole hnil hend.symm, hwhole, straysIn_cons]
        refine ⟨fun h => Or.inr (Or.inl h), ?_⟩
        rintro (⟨h, -⟩ | h | ⟨-, pre', q, post, h, -⟩)
        · exact absurd h hempty
        · exact h
        · simp at h
    · have hempty : EndsEmpty d (p ++ ',' :: body') ↔ EndsEmpty (depth '<' '>' d p) body' := by
        rw [EndsEmpty, EndsEmpty, hcut, List.getLast?_cons_of_ne_nil (cut_ne_nil _ _)]
      simp only [List.length_append, List.length_cons] at hfuel hend
      have htext' : text = pre ++ (p ++ ',' :: (body' ++ '>' :: junk)) := by
        rw [htext]
        simp
      have hlen : typeEnd ≤ text.length := by
        rw [htext]
        simp only [List.length_append, List.length_cons]
        omega
      have hrest := ih (pre ++ p ++ [',']) body' (by rw [htext]; simp)
        (by simp only [List.length_append, List.length_singleton]; omega) (by omega)
        (depth '<' '>' d p)
      rw [strays_sep htext' hp hd (by omega) hlen, hrest, hempty, hcut, straysIn_cons,
        List.dropLast_cons_of_ne_nil (cut_ne_nil _ _), List.forall_mem_cons]
      tauto

end Children

/-! ### What each kind of text reads -/

section Kinds

variable (fuel : ℕ) {junk : List Char}

theorem strays_array (hj : '>' ∉ junk) (c : List Char) :
    Strays (typeReadsFuel castUInt8 (fuel + 1) ("array<".toList ++ (c ++ '>' :: junk))) ↔
      Strays (typeReadsFuel castUInt8 fuel c) := by
  have hprim : primitiveType (String.ofList ("array<".toList ++ (c ++ '>' :: junk))) = none :=
    primitiveType_of_mem (c := '<') (by decide) (by simp)
  have hsub : subText ("array<".toList ++ (c ++ '>' :: junk)) 6
      ("array<".toList.length + c.length - 6) = c := by
    have hlen : "array<".toList.length + c.length - 6 = c.length := Nat.add_sub_cancel_left 6 _
    have hdrop : ("array<".toList ++ (c ++ '>' :: junk)).drop 6 = c ++ '>' :: junk := rfl
    rw [subText, hlen, hdrop, List.take_left]
  have hstart : (Access.substr ("array<".toList ++ (c ++ '>' :: junk)).length 6).InBounds := by
    show 6 ≤ ("array<".toList ++ (c ++ '>' :: junk)).length
    rw [List.length_append]
    exact Nat.le_add_right 6 _
  rw [typeReadsFuel, hprim]
  dsimp only
  rw [if_neg (find_other_keyword (by decide) (by decide) (by decide)),
    if_pos (find_keyword (by decide)), rfind_bracket hj]
  dsimp only
  rw [hsub, strays_cons, or_iff_right (not_not_intro hstart)]

theorem strays_map (hj : '>' ∉ junk) (body : List Char) :
    Strays (typeReadsFuel castUInt8 (fuel + 1) ("map<".toList ++ (body ++ '>' :: junk))) ↔
      EndsEmpty 0 body ∧
          (∀ x ∈ (pieces 0 body).dropLast, ∃ T, typeToLogicalTypeFuel castUInt8 fuel x = .ok T) ∨
        StraysIn (typeToLogicalTypeFuel castUInt8 fuel) (typeReadsFuel castUInt8 fuel)
          (pieces 0 body) := by
  have hprim : primitiveType (String.ofList ("map<".toList ++ (body ++ '>' :: junk))) = none :=
    primitiveType_of_mem (c := '<') (by decide) (by simp)
  rw [typeReadsFuel, hprim]
  dsimp only
  rw [if_neg (find_other_keyword (by decide) (by decide) (by decide)),
    if_neg (find_other_keyword (by decide) (by decide) (by decide)),
    if_pos (find_keyword (by decide)), rfind_bracket hj]
  refine strays_children "map<".toList body rfl rfl ?_ 0
  simp only [List.length_append]
  omega

theorem strays_struct (hj : '>' ∉ junk) (body : List Char) :
    Strays (typeReadsFuel castUInt8 (fuel + 1) ("struct<".toList ++ (body ++ '>' :: junk))) ↔
      EndsEmpty 0 body ∧ (∀ x ∈ (pieces 0 body).dropLast,
          ∃ y, structChild (typeToLogicalTypeFuel castUInt8 fuel) x = .ok y) ∨
        StraysIn (structChild (typeToLogicalTypeFuel castUInt8 fuel))
          (structChildReads (typeReadsFuel castUInt8 fuel)) (pieces 0 body) := by
  have hprim : primitiveType (String.ofList ("struct<".toList ++ (body ++ '>' :: junk))) = none :=
    primitiveType_of_mem (c := '<') (by decide) (by simp)
  rw [typeReadsFuel, hprim]
  dsimp only
  rw [if_neg (find_other_keyword (by decide) (by decide) (by decide)),
    if_neg (find_other_keyword (by decide) (by decide) (by decide)),
    if_neg (find_other_keyword (by decide) (by decide) (by decide)),
    if_pos (find_keyword (by decide)), rfind_bracket hj]
  refine strays_children "struct<".toList body rfl rfl ?_ 0
  simp only [List.length_append]
  omega

/-- A field strays where its type does. -/
theorem strays_field (reads : List Char → List Access) {name : List Char} (hname : ':' ∉ name)
    (type : List Char) :
    Strays (structChildReads reads (name ++ ':' :: type)) ↔ Strays (reads type) := by
  have hdrop : (name ++ ':' :: type).drop (name.length + 1) = type := by
    rw [← List.drop_drop, List.drop_left]
    rfl
  have hstart : (Access.substr (name ++ ':' :: type).length 0).InBounds := Nat.zero_le _
  have htype : (Access.substr (name ++ ':' :: type).length (name.length + 1)).InBounds := by
    show name.length + 1 ≤ (name ++ ':' :: type).length
    rw [List.length_append, List.length_cons]
    omega
  rw [structChildReads, findList_char hname]
  dsimp only
  rw [hdrop, strays_cons, or_iff_right (not_not_intro hstart), strays_cons,
    or_iff_right (not_not_intro htype)]

theorem not_strays_noColon (reads : List Char → List Access) {p : List Char} (hp : ':' ∉ p) :
    ¬ Strays (structChildReads reads p) := by
  rw [structChildReads, findList_none hp]
  exact not_strays_nil

/-- A decimal type takes its parts from inside the text. -/
theorem not_strays_decimal (rest : List Char) :
    ¬ Strays (typeReadsFuel castUInt8 (fuel + 1) ("decimal(".toList ++ rest)) := by
  set text := "decimal(".toList ++ rest with htext
  have hprim : primitiveType (String.ofList text) = none :=
    primitiveType_of_mem (c := '(') (by decide) (by simp [htext])
  have hsep : (findList [','] text).elim 0 (· + 1) ≤ text.length := by
    rcases findList_cases ',' text with ⟨-, hfind⟩ | ⟨u, v, huv, -, hfind⟩
    · rw [hfind]
      exact Nat.zero_le _
    · rw [hfind, huv, List.length_append, List.length_cons]
      show u.length + 1 ≤ _
      omega
  have hstart : 8 ≤ text.length := by
    rw [htext, List.length_append]
    exact Nat.le_add_right 8 _
  rw [typeReadsFuel, hprim]
  dsimp only
  rw [if_pos (find_keyword (by decide))]
  cases findList [')'] text with
  | none => exact not_strays_nil
  | some specEnd =>
    dsimp only
    rw [strays_cons, strays_cons]
    rintro (h | h | h)
    · exact h hstart
    · exact h hsep
    · exact not_strays_nil h

/-- Without a closing bracket no loop starts. -/
theorem not_strays_open {text : List Char} (htext : '>' ∉ text) :
    ¬ Strays (typeReadsFuel castUInt8 (fuel + 1) text) := by
  by_cases hdecimal : "decimal(".toList <+: text
  · obtain ⟨rest, rfl⟩ := hdecimal
    exact not_strays_decimal castUInt8 fuel rest
  · have hfind : findList "decimal(".toList text ≠ some 0 := fun h =>
      hdecimal ((findList_eq_zero_iff (by decide)).1 h)
    rw [typeReadsFuel, rfindList_none htext]
    cases primitiveType (String.ofList text) with
    | some id => exact not_strays_nil
    | none =>
      dsimp only
      rw [if_neg hfind]
      split_ifs <;> exact not_strays_nil

theorem not_strays_noKeyword {text : List Char} (h : ∀ keyword ∈ keywords, ¬ keyword <+: text) :
    ¬ Strays (typeReadsFuel castUInt8 (fuel + 1) text) := by
  have hnot : ∀ keyword ∈ keywords, findList keyword text ≠ some 0 := by
    intro keyword hkey hfind
    have hne : keyword ≠ [] := by
      rintro rfl
      exact absurd hkey (by decide)
    exact h keyword hkey ((findList_eq_zero_iff hne).1 hfind)
  rw [typeReadsFuel]
  cases primitiveType (String.ofList text) with
  | some id => exact not_strays_nil
  | none =>
    dsimp only
    rw [if_neg (hnot _ (by simp [keywords])), if_neg (hnot _ (by simp [keywords])),
      if_neg (hnot _ (by simp [keywords])), if_neg (hnot _ (by simp [keywords]))]
    exact not_strays_nil

/-- The parser strays in arrays, maps and structs that are closed. -/
theorem nested_of_strays {text : List Char} (h : Strays (typeReadsFuel castUInt8 (fuel + 1) text)) :
    ∃ keyword ∈ ["array<".toList, "map<".toList, "struct<".toList], ∃ body junk, '>' ∉ junk ∧
      text = keyword ++ (body ++ '>' :: junk) := by
  by_contra hnot
  by_cases hkey : ∃ keyword ∈ ["array<".toList, "map<".toList, "struct<".toList], keyword <+: text
  · obtain ⟨keyword, hmem, rest, rfl⟩ := hkey
    rcases rfindList_cases '>' rest with ⟨hrest, -⟩ | ⟨body, junk, rfl, hj, -⟩
    · refine not_strays_open castUInt8 fuel ?_ h
      rw [List.mem_append, not_or]
      refine ⟨?_, hrest⟩
      simp only [List.mem_cons, List.not_mem_nil, or_false] at hmem
      rcases hmem with rfl | rfl | rfl <;> decide
    · exact hnot ⟨keyword, hmem, body, junk, hj, rfl⟩
  · by_cases hdecimal : "decimal(".toList <+: text
    · obtain ⟨rest, rfl⟩ := hdecimal
      exact not_strays_decimal castUInt8 fuel rest h
    · refine not_strays_noKeyword castUInt8 fuel ?_ h
      rw [keywords, List.forall_mem_cons]
      exact ⟨hdecimal, fun keyword hmem hpre => hkey ⟨keyword, hmem, hpre⟩⟩

end Kinds

end ICUtils

open ICUtils

/-! ### Texts in which the parser strays -/

/-- The scan of a map or struct passes the end of its body: the last child is empty and the others are
in order, or this happens in a child and those before it are in order. -/
inductive PassesEnd (castUInt8 : String → Option (Fin 256)) : List Char → Prop
  | array {c junk : List Char} (hj : '>' ∉ junk) (h : PassesEnd castUInt8 c) :
      PassesEnd castUInt8 ("array<".toList ++ (c ++ '>' :: junk))
  | mapChild {body junk p : List Char} {pre post : List (List Char)} (hj : '>' ∉ junk)
      (hcut : pieces 0 body = pre ++ p :: post) (hpre : ∀ x ∈ pre, ∃ T, Lenient castUInt8 x T)
      (h : PassesEnd castUInt8 p) : PassesEnd castUInt8 ("map<".toList ++ (body ++ '>' :: junk))
  | mapEnd {body junk : List Char} (hj : '>' ∉ junk) (hend : EndsEmpty 0 body)
      (h : ∀ x ∈ (pieces 0 body).dropLast, ∃ T, Lenient castUInt8 x T) :
      PassesEnd castUInt8 ("map<".toList ++ (body ++ '>' :: junk))
  | structChild {body junk name type : List Char} {pre post : List (List Char)} (hj : '>' ∉ junk)
      (hcut : pieces 0 body = pre ++ (name ++ ':' :: type) :: post)
      (hpre : ∀ x ∈ pre, LenientField castUInt8 x) (hname : ':' ∉ name)
      (h : PassesEnd castUInt8 type) :
      PassesEnd castUInt8 ("struct<".toList ++ (body ++ '>' :: junk))
  | structEnd {body junk : List Char} (hj : '>' ∉ junk) (hend : EndsEmpty 0 body)
      (h : ∀ x ∈ (pieces 0 body).dropLast, LenientField castUInt8 x) :
      PassesEnd castUInt8 ("struct<".toList ++ (body ++ '>' :: junk))

variable {castUInt8 : String → Option (Fin 256)}

/-- Where the parser strays, a scan passes the end of a body. -/
theorem passesEnd_of_strays (hparen : ∀ s : String, ')' ∈ s.toList → castUInt8 s = none) {fuel : ℕ}
    {text : List Char} (h : Strays (typeReadsFuel castUInt8 fuel text)) :
    PassesEnd castUInt8 text := by
  induction fuel generalizing text with
  | zero => exact absurd h not_strays_nil
  | succ fuel ih =>
    obtain ⟨keyword, hkey, body, junk, hj, rfl⟩ := nested_of_strays castUInt8 fuel h
    simp only [List.mem_cons, List.not_mem_nil, or_false] at hkey
    rcases hkey with rfl | rfl | rfl
    · exact .array hj (ih ((strays_array castUInt8 fuel hj body).1 h))
    · have hok : ∀ {x : List Char}, (∃ T, typeToLogicalTypeFuel castUInt8 fuel x = .ok T) →
          ∃ T, Lenient castUInt8 x T := by
        rintro x ⟨T, hT⟩
        exact ⟨T, lenient_of_ok hparen hT⟩
      rcases (strays_map castUInt8 fuel hj body).1 h with
        ⟨hend, hall⟩ | ⟨pre, p, post, hcut, hpre, hp⟩
      · exact .mapEnd hj hend fun x hx => hok (hall x hx)
      · exact .mapChild hj hcut (fun x hx => hok (hpre x hx)) (ih hp)
    · have hok : ∀ {x : List Char},
          (∃ y, structChild (typeToLogicalTypeFuel castUInt8 fuel) x = .ok y) →
            LenientField castUInt8 x := by
        rintro x ⟨y, hy⟩
        exact lenientField_of_ok (fun _ _ => lenient_of_ok hparen) hy
      rcases (strays_struct castUInt8 fuel hj body).1 h with
        ⟨hend, hall⟩ | ⟨pre, p, post, hcut, hpre, hp⟩
      · exact .structEnd hj hend fun x hx => hok (hall x hx)
      · rcases field_cases p with hcolon | ⟨name, type, rfl, hname⟩
        · exact absurd hp (not_strays_noColon _ hcolon)
        · exact .structChild hj hcut (fun x hx => hok (hpre x hx)) hname
            (ih ((strays_field _ hname type).1 hp))

/-- Where a scan passes the end of a body, the parser strays. -/
theorem strays_of_passesEnd {text : List Char} (h : PassesEnd castUInt8 text) {fuel : ℕ}
    (hfuel : text.length < fuel) : Strays (typeReadsFuel castUInt8 fuel text) := by
  induction h generalizing fuel with
  | @array c junk hj _ ih =>
    cases fuel with
    | zero => exact absurd hfuel (Nat.not_lt_zero _)
    | succ fuel =>
      simp only [List.length_append, List.length_cons] at hfuel
      exact (strays_array castUInt8 fuel hj c).2 (ih (by omega))
  | @mapChild body junk p pre post hj hcut hpre _ ih =>
    cases fuel with
    | zero => exact absurd hfuel (Nat.not_lt_zero _)
    | succ fuel =>
      simp only [List.length_append, List.length_cons] at hfuel
      have hkey : "map<".toList.length = 4 := rfl
      have hlen : ∀ x ∈ pre ++ p :: post, x.length < fuel := by
        intro x hx
        have := length_le_of_mem_cut (hcut ▸ hx : x ∈ pieces 0 body)
        omega
      refine (strays_map castUInt8 fuel hj body).2 (Or.inr ⟨pre, p, post, hcut, fun x hx => ?_, ?_⟩)
      · obtain ⟨T, hT⟩ := hpre x hx
        exact ⟨T, ok_of_lenient hT (hlen x (by simp [hx]))⟩
      · exact ih (hlen p (by simp))
  | @mapEnd body junk hj hend hall =>
    cases fuel with
    | zero => exact absurd hfuel (Nat.not_lt_zero _)
    | succ fuel =>
      simp only [List.length_append, List.length_cons] at hfuel
      have hkey : "map<".toList.length = 4 := rfl
      refine (strays_map castUInt8 fuel hj body).2 (Or.inl ⟨hend, fun x hx => ?_⟩)
      obtain ⟨T, hT⟩ := hall x hx
      have := length_le_of_mem_cut (List.dropLast_subset _ hx)
      exact ⟨T, ok_of_lenient hT (by omega)⟩
  | @structChild body junk name type pre post hj hcut hpre hname _ ih =>
    cases fuel with
    | zero => exact absurd hfuel (Nat.not_lt_zero _)
    | succ fuel =>
      simp only [List.length_append, List.length_cons] at hfuel
      have hlen : ∀ x ∈ pre ++ (name ++ ':' :: type) :: post, x.length ≤ fuel := by
        intro x hx
        have := length_le_of_mem_cut (hcut ▸ hx : x ∈ pieces 0 body)
        omega
      refine (strays_struct castUInt8 fuel hj body).2
        (Or.inr ⟨pre, _, post, hcut, fun x hx => ?_, ?_⟩)
      · exact structChild_of_lenientField (hpre x hx) (hlen x (by simp [hx]))
      · have hfield := hlen (name ++ ':' :: type) (by simp)
        rw [List.length_append, List.length_cons] at hfield
        exact (strays_field _ hname type).2 (ih (by omega))
  | @structEnd body junk hj hend hall =>
    cases fuel with
    | zero => exact absurd hfuel (Nat.not_lt_zero _)
    | succ fuel =>
      simp only [List.length_append, List.length_cons] at hfuel
      refine (strays_struct castUInt8 fuel hj body).2 (Or.inl ⟨hend, fun x hx => ?_⟩)
      have := length_le_of_mem_cut (List.dropLast_subset _ hx)
      exact structChild_of_lenientField (hall x hx) (by omega)

/-- Pieces that the loop reaches in order, up to one of them, are pieces of the body in order, or the
body ends with an empty one behind pieces in order. -/
theorem reached_cases {P : List Char → Prop} {body junk p : List Char} {pre post : List (List Char)}
    (h : reached 0 body ('>' :: junk) = pre ++ p :: post) (hpre : ∀ x ∈ pre, P x) :
    (∃ post', pieces 0 body = pre ++ p :: post') ∨
      EndsEmpty 0 body ∧ ∀ x ∈ (pieces 0 body).dropLast, P x := by
  rw [reached] at h
  split_ifs at h with hend
  · obtain ⟨ps, hps⟩ := List.getLast?_eq_some_iff.1 hend
    rw [hps, List.dropLast_concat] at h ⊢
    rcases List.append_eq_append_iff.1 h with ⟨l, rfl, -⟩ | ⟨l, rfl, hl⟩
    · exact Or.inr ⟨hend, fun x hx => hpre x (List.mem_append_left _ hx)⟩
    · cases l with
      | nil => exact Or.inr ⟨hend, fun x hx => hpre x (by simpa using hx)⟩
      | cons q l =>
        obtain ⟨rfl, -⟩ := List.cons.inj hl
        exact Or.inl ⟨l ++ [[]], by simp⟩
  · exact Or.inl ⟨post, h⟩

/-- Where the parser reads behind the end of a text, a scan has passed the end of a body. -/
theorem Overruns.passesEnd {text : List Char} (h : Overruns castUInt8 text) :
    PassesEnd castUInt8 text := by
  have hinit : ∀ {body junk x : List Char}, EndsEmpty 0 body → x ∈ (pieces 0 body).dropLast →
      x ∈ reached 0 body ('>' :: junk) := by
    intro body junk x hend hx
    rw [reached, if_pos hend]
    exact List.mem_append_left _ hx
  induction h with
  | array hj _ ih => exact .array hj ih
  | mapChild hj hreached hpre _ ih =>
    rcases reached_cases hreached hpre with ⟨post', hcut⟩ | ⟨hend, hall⟩
    · exact .mapChild hj hcut hpre ih
    · exact .mapEnd hj hend hall
  | mapEnd hj hend hall => exact .mapEnd hj hend fun x hx => hall x (hinit hend hx)
  | structChild hj hreached hpre hname _ ih =>
    rcases reached_cases hreached hpre with ⟨post', hcut⟩ | ⟨hend, hall⟩
    · exact .structChild hj hcut hpre hname ih
    · exact .structEnd hj hend hall
  | structEnd hj hend hall => exact .structEnd hj hend fun x hx => hall x (hinit hend hx)

/-- The parser reads inside the text, at every level, and ends with a type or an exception. -/
def Safe (castUInt8 : String → Option (Fin 256)) (typeText : String) : Prop :=
  (∀ a ∈ typeReads castUInt8 typeText, a.InBounds) ∧
    ((∃ T, typeToLogicalType castUInt8 typeText = .ok T) ∨
      ∃ e, typeToLogicalType castUInt8 typeText = .error e ∧ e.type ≠ .undefined ∧
        e.type ≠ .diverged)

/-- **The parser of types is safe** on a text exactly when no scan passes the end of a body. -/
theorem safe_iff (castUInt8 : String → Option (Fin 256))
    (hparen : ∀ s : String, ')' ∈ s.toList → castUInt8 s = none) (typeText : String) :
    Safe castUInt8 typeText ↔ ¬ PassesEnd castUInt8 typeText.toList := by
  constructor
  · rintro ⟨hreads, -⟩ hpasses
    obtain ⟨a, ha, hstray⟩ := strays_of_passesEnd hpasses (Nat.lt_succ_self _)
    exact hstray (hreads a ha)
  · intro h
    constructor
    · intro a ha
      by_contra hstray
      exact h (passesEnd_of_strays hparen ⟨a, ha, hstray⟩)
    · cases hrun : typeToLogicalType castUInt8 typeText with
      | ok T => exact Or.inl ⟨T, rfl⟩
      | error e =>
        refine Or.inr ⟨e, rfl, fun he => ?_, not_diverged hparen (Nat.lt_succ_self _) hrun⟩
        exact h (overruns_of_undefined hparen hrun he).passesEnd

/-- The type of a column with two levels of nesting is read safely. -/
theorem safe_iff_nested : Safe readUInt8 "map<string,array<int>>" ↔
    ¬ PassesEnd readUInt8 "map<string,array<int>>".toList :=
  safe_iff readUInt8 (fun _ h => readUInt8_of_mem (by decide) h) _

/-- A struct without fields is read behind its end. -/
theorem not_safe_emptyStruct : ¬ Safe readUInt8 "struct<>" := by
  rintro ⟨hreads, -⟩
  have hread : Access.read 8 7 8 ∈ typeReads readUInt8 "struct<>" := by
    decide +kernel
  have hin := hreads _ hread
  exact absurd hin.1 (by decide)

end DuckIceberg
