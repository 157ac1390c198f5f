import DuckIceberg.Catalog.TypeText

/-!
# What the parser of types accepts

`TypeToLogicalType` ignores what follows the bracket that closes a type, its search for the next
comma knows of angle brackets only, and it misses the end of a map or struct whose last child is
empty.

* `Lenient`: the texts that it takes for a type; `Overruns`: those it reads behind;
* `lenient_of_ok`, `ok_of_lenient`: the first are those it returns a type for;
* `overruns_of_undefined`, `readBehindEnd_of_overruns`: for the others, and only for them, what it
  does is undefined.
-/

namespace DuckIceberg

open Strings Cut ICUtils

/-! ### What the parser takes for a type -/

variable (castUInt8 : String → Option (Fin 256))

mutual

/-- The parser takes the text for this type: whatever follows the last closing bracket, or the first
closing parenthesis of a decimal, is ignored, and a map or struct is cut at every comma that no angle
bracket encloses. -/
inductive Lenient : List Char → LogicalType → Prop
  | primitive {text : List Char} {id : LogicalTypeId}
      (h : primitiveType (String.ofList text) = some id) : Lenient text (.simple id)
  | decimal {w s : List Char} {precision scale : Fin 256} (hw : ',' ∉ w) (hw' : ')' ∉ w)
      (hs : ')' ∉ s) (hprecision : castUInt8 (String.ofList w) = some precision)
      (hscale : castUInt8 (String.ofList s) = some scale) (h : precision.val ≤ 38)
      (junk : List Char) :
      Lenient ("decimal(".toList ++ (w ++ ',' :: s ++ ')' :: junk)) (.decimal precision scale)
  | array {c junk : List Char} {T : LogicalType} (hj : '>' ∉ junk) (h : Lenient c T) :
      Lenient ("array<".toList ++ (c ++ '>' :: junk)) (.list T)
  | map {body junk k v : List Char} {K V : LogicalType} (hj : '>' ∉ junk)
      (hcut : pieces 0 body = [k, v]) (hk : Lenient k K) (hv : Lenient v V) :
      Lenient ("map<".toList ++ (body ++ '>' :: junk)) (.map K V)
  | struct {body junk : List Char} {fields : List (String × LogicalType)} (hj : '>' ∉ junk)
      (h : LenientFields (pieces 0 body) fields) :
      Lenient ("struct<".toList ++ (body ++ '>' :: junk)) (.struct fields)

/-- The parser takes the pieces for these fields of a struct. -/
inductive LenientFields : List (List Char) → List (String × LogicalType) → Prop
  | nil : LenientFields [] []
  | cons {name type : List Char} {T : LogicalType} {ps : List (List Char)}
      {fields : List (String × LogicalType)} (hname : ':' ∉ name) (htype : Lenient type T)
      (hps : LenientFields ps fields) :
      LenientFields ((name ++ ':' :: type) :: ps) ((String.ofList name, T) :: fields)

end

/-- The parser takes the piece for a field of a struct. -/
def LenientField (p : List Char) : Prop :=
  ∃ name type T, p = name ++ ':' :: type ∧ ':' ∉ name ∧ Lenient castUInt8 type T

/-- The parser reads behind the end of the text: the last child of a map or struct is empty, and what
the loop reaches before it gets to the end of the text is in order. -/
inductive Overruns : List Char → Prop
  | array {c junk : List Char} (hj : '>' ∉ junk) (h : Overruns c) :
      Overruns ("array<".toList ++ (c ++ '>' :: junk))
  | mapChild {body junk p : List Char} {pre post : List (List Char)} (hj : '>' ∉ junk)
      (hreached : reached 0 body ('>' :: junk) = pre ++ p :: post)
      (hpre : ∀ x ∈ pre, ∃ T, Lenient castUInt8 x T) (h : Overruns p) :
      Overruns ("map<".toList ++ (body ++ '>' :: junk))
  | mapEnd {body junk : List Char} (hj : '>' ∉ junk) (hend : EndsEmpty 0 body)
      (h : ∀ x ∈ reached 0 body ('>' :: junk), ∃ T, Lenient castUInt8 x T) :
      Overruns ("map<".toList ++ (body ++ '>' :: junk))
  | structChild {body junk name type : List Char} {pre post : List (List Char)} (hj : '>' ∉ junk)
      (hreached : reached 0 body ('>' :: junk) = pre ++ (name ++ ':' :: type) :: post)
      (hpre : ∀ x ∈ pre, LenientField castUInt8 x) (hname : ':' ∉ name) (h : Overruns type) :
      Overruns ("struct<".toList ++ (body ++ '>' :: junk))
  | structEnd {body junk : List Char} (hj : '>' ∉ junk) (hend : EndsEmpty 0 body)
      (h : ∀ x ∈ reached 0 body ('>' :: junk), LenientField castUInt8 x) :
      Overruns ("struct<".toList ++ (body ++ '>' :: junk))

/-! ### The loop over the children -/

section Children

variable {β : Type} {child : List Char → Except Error β} {body junk : List Char}

theorem childTypes_eq_ok {xs : List β} : childTypes child body junk = .ok xs ↔
    ¬ EndsEmpty 0 body ∧ List.Forall₂ (fun p x => child p = .ok x) (pieces 0 body) xs := by
  rw [childTypes, bind_eq_ok]
  by_cases hend : EndsEmpty 0 body
  · simp only [if_pos hend]
    refine iff_of_false ?_ fun h => h.1 hend
    rintro ⟨xs', -, h⟩
    cases h
  · simp only [if_neg hend, reached, mapM_eq_ok]
    constructor
    · rintro ⟨xs', hxs, h⟩
      cases h
      exact ⟨hend, hxs⟩
    · rintro ⟨-, hxs⟩
      exact ⟨xs, hxs, rfl⟩

theorem childTypes_eq_error {e : Error} : childTypes child body junk = .error e ↔
    (∃ pre p post, reached 0 body ('>' :: junk) = pre ++ p :: post ∧
      (∀ x ∈ pre, ∃ y, child x = .ok y) ∧ child p = .error e) ∨
    (EndsEmpty 0 body ∧ (∀ x ∈ reached 0 body ('>' :: junk), ∃ y, child x = .ok y) ∧
      (readBehindEnd : Except Error (List β)) = .error e) := by
  rw [childTypes, bind_eq_error, mapM_eq_error, ← mapM_ok_iff]
  refine or_congr_right ?_
  by_cases hend : EndsEmpty 0 body
  · simp only [hend, if_true, true_and, exists_and_right]
  · simp only [hend, if_false, false_and, iff_false]
    rintro ⟨xs, -, h⟩
    cases h

/-- What the loop reaches is shorter than the text. -/
theorem length_of_mem_reached {p : List Char} (h : p ∈ reached 0 body ('>' :: junk)) :
    p.length ≤ body.length + junk.length + 1 := by
  have hpiece : ∀ {d : ℤ} {l : List Char}, p ∈ pieces d l → p.length ≤ l.length :=
    length_le_of_mem_cut
  rw [reached] at h
  split_ifs at h
  · rcases List.mem_append.1 h with h | h
    · have := hpiece (List.dropLast_subset _ h)
      omega
    · have := hpiece (List.dropLast_subset _ h)
      rw [List.length_cons] at this
      omega
  · have := hpiece h
    omega

end Children

/-- A field is parsed behind the first colon. -/
theorem structChild_field (parse : List Char → Except Error LogicalType) {name : List Char}
    (hname : ':' ∉ name) (type : List Char) : structChild parse (name ++ ':' :: type) = (do
      let childType ← parse type
      return (String.ofList name, childType)) := by
  have hdrop : (name ++ ':' :: type).drop (name.length + 1) = type := by
    rw [← List.drop_drop, List.drop_left]
    rfl
  rw [structChild, findList_char hname]
  dsimp only
  rw [hdrop, List.take_left]

theorem structChild_noColon (parse : List Char → Except Error LogicalType) {p : List Char}
    (hp : ':' ∉ p) : structChild parse p = .error ⟨.notImplemented,
      "Invalid struct child type specifier: " ++ String.ofList p⟩ := by
  rw [structChild, findList_none hp]

/-- A piece has a name and a type, or no colon. -/
theorem field_cases (p : List Char) :
    ':' ∉ p ∨ ∃ name type, p = name ++ ':' :: type ∧ ':' ∉ name := by
  by_cases hp : ':' ∈ p
  · obtain ⟨name, type, rfl, hname⟩ := List.eq_append_cons_of_mem hp
    exact Or.inr ⟨name, type, rfl, hname⟩
  · exact Or.inl hp

theorem castOperation_eq_ok {s : List Char} {n : ℤ} : castOperation castUInt8 s = .ok n ↔
    ∃ m : Fin 256, castUInt8 (String.ofList s) = some m ∧ (m.val : ℤ) = n := by
  rw [castOperation]
  cases hcast : castUInt8 (String.ofList s) with
  | none => simp
  | some m => simp

theorem makeDecimal_fin (prec scale : Fin 256) : makeDecimal prec.val scale.val =
    if prec.val ≤ 38 then .ok (.decimal prec scale)
    else .error ⟨.internal,
      "Decimal has a width which is bigger than the maximum supported width"⟩ := by
  have huint : ∀ n : Fin 256, toUInt8 (n.val : ℤ) = n.val := by
    intro n
    have hn := n.isLt
    rw [toUInt8]
    omega
  rw [makeDecimal, huint, huint]

/-! ### The parser takes the lenient texts -/

section Accepts

variable {castUInt8}

/-- The pieces that are parsed as fields. -/
theorem lenientFields_of_forall₂ {parse : List Char → Except Error LogicalType}
    {ps : List (List Char)} {fields : List (String × LogicalType)}
    (h : List.Forall₂ (fun p x => structChild parse p = .ok x) ps fields)
    (hparse : ∀ text T, parse text = .ok T → Lenient castUInt8 text T) :
    LenientFields castUInt8 ps fields := by
  induction h with
  | nil => exact .nil
  | @cons p x ps fields hp _ ih =>
    rcases field_cases p with hcolon | ⟨name, type, rfl, hname⟩
    · rw [structChild_noColon parse hcolon] at hp
      cases hp
    · rw [structChild_field parse hname] at hp
      obtain ⟨T, hT, hp⟩ := bind_eq_ok.1 hp
      cases hp
      exact .cons hname (hparse type T hT) ih

/-- Every text that is parsed is lenient. -/
theorem lenient_of_ok (hparen : ∀ s : String, ')' ∈ s.toList → castUInt8 s = none) {fuel : ℕ}
    {text : List Char} {T : LogicalType} (h : typeToLogicalTypeFuel castUInt8 fuel text = .ok T) :
    Lenient castUInt8 text T := by
  induction fuel generalizing text T with
  | zero => cases h
  | succ fuel ih =>
    cases textKind castUInt8 text with
    | primitive hprim =>
      rw [typeToLogicalTypeFuel, hprim] at h
      cases h
      exact .primitive hprim
    | @decimal a ha junk =>
      rw [typeToLogicalTypeFuel_decimal castUInt8 fuel ha] at h
      by_cases hcomma : ',' ∈ a
      · obtain ⟨w, s, rfl, hw⟩ := List.eq_append_cons_of_mem hcomma
        rw [decimalType_comma castUInt8 hw] at h
        obtain ⟨prec, hprec, h⟩ := bind_eq_ok.1 h
        obtain ⟨scale, hscale, h⟩ := bind_eq_ok.1 h
        obtain ⟨precision, hw256, rfl⟩ := (castOperation_eq_ok castUInt8).1 hprec
        obtain ⟨scale, hs256, rfl⟩ := (castOperation_eq_ok castUInt8).1 hscale
        rw [makeDecimal_fin] at h
        split_ifs at h with hwidth
        cases h
        simp only [List.mem_append, List.mem_cons, not_or] at ha
        exact .decimal hw ha.1 ha.2.2 hw256 hs256 hwidth junk
      · obtain ⟨message, herror⟩ := decimalType_noComma castUInt8 hcomma junk hparen
          ("decimal(".toList.length + a.length)
        rw [herror] at h
        cases h
    | array c hj =>
      rw [typeToLogicalTypeFuel_array castUInt8 fuel hj] at h
      obtain ⟨childType, hchild, h⟩ := bind_eq_ok.1 h
      cases h
      exact .array hj (ih hchild)
    | map body hj =>
      rw [typeToLogicalTypeFuel_map castUInt8 fuel hj] at h
      obtain ⟨keyVal, hchildren, h⟩ := bind_eq_ok.1 h
      obtain ⟨-, hall⟩ := childTypes_eq_ok.1 hchildren
      rcases keyVal with _ | ⟨K, _ | ⟨V, _ | ⟨W, rest⟩⟩⟩
      · cases h
      · cases h
      · cases h
        obtain ⟨k, ps, hk, hps, hcut⟩ := List.forall₂_cons_right_iff.1 hall
        obtain ⟨v, ps', hv, hps', rfl⟩ := List.forall₂_cons_right_iff.1 hps
        cases hps'
        exact .map hj hcut (ih hk) (ih hv)
      · cases h
    | struct body hj =>
      rw [typeToLogicalTypeFuel_struct castUInt8 fuel hj] at h
      obtain ⟨types, hchildren, h⟩ := bind_eq_ok.1 h
      cases h
      exact .struct hj (lenientFields_of_forall₂ (childTypes_eq_ok.1 hchildren).2 fun _ _ => ih)
    | unknown hunknown =>
      rw [hunknown fuel] at h
      cases h

theorem Lenient.ne_nil {text : List Char} {T : LogicalType} (h : Lenient castUInt8 text T) :
    text ≠ [] := by
  cases h with
  | primitive hprim =>
    rintro rfl
    revert hprim
    simp [primitiveType, primitiveTypes]
  | decimal | array | map | struct => exact List.cons_ne_nil _ _

theorem LenientFields.nil_notMem {ps : List (List Char)} {fields : List (String × LogicalType)}
    (h : LenientFields castUInt8 ps fields) : [] ∉ ps := by
  induction fields generalizing ps with
  | nil =>
    cases h
    exact List.not_mem_nil
  | cons x fields ih =>
    cases h with
    | cons hname htype hps =>
      rw [List.mem_cons, not_or]
      refine ⟨fun hnil => ?_, ih hps⟩
      simp at hnil

mutual

/-- Every lenient text is parsed. -/
theorem ok_of_lenient : ∀ {text : List Char} {T : LogicalType}, Lenient castUInt8 text T →
    ∀ {fuel : ℕ}, text.length < fuel → typeToLogicalTypeFuel castUInt8 fuel text = .ok T
  | _, _, h, 0, hfuel => absurd hfuel (Nat.not_lt_zero _)
  | _, _, .primitive hprim, fuel + 1, _ => by
    rw [typeToLogicalTypeFuel, hprim]
  | _, _, @Lenient.decimal _ w s precision scale hw hw' hs hprecision hscale hwidth junk,
      fuel + 1, _ => by
    have hparen : ')' ∉ w ++ ',' :: s := by
      simp only [List.mem_append, List.mem_cons, not_or]
      exact ⟨hw', by decide, hs⟩
    rw [typeToLogicalTypeFuel_decimal castUInt8 fuel hparen, decimalType_comma castUInt8 hw,
      (castOperation_eq_ok castUInt8).2 ⟨precision, hprecision, rfl⟩,
      (castOperation_eq_ok castUInt8).2 ⟨scale, hscale, rfl⟩]
    change makeDecimal precision.val scale.val = _
    rw [makeDecimal_fin, if_pos hwidth]
  | _, _, @Lenient.array _ c junk T hj h, fuel + 1, hfuel => by
    simp only [List.length_append, List.length_cons] at hfuel
    rw [typeToLogicalTypeFuel_array castUInt8 fuel hj, ok_of_lenient h (by omega)]
    rfl
  | _, _, @Lenient.map _ body junk k v K V hj hcut hk hv, fuel + 1, hfuel => by
    simp only [List.length_append, List.length_cons] at hfuel
    have hklen : k.length ≤ body.length :=
      length_le_of_mem_cut (show k ∈ pieces 0 body by rw [hcut]; simp)
    have hvlen : v.length ≤ body.length :=
      length_le_of_mem_cut (show v ∈ pieces 0 body by rw [hcut]; simp)
    have hkfuel : k.length < fuel := by omega
    have hvfuel : v.length < fuel := by omega
    have hkey := ok_of_lenient hk hkfuel
    have hvalue := ok_of_lenient hv hvfuel
    have hend : ¬ EndsEmpty 0 body := by
      rw [EndsEmpty, hcut]
      intro hlast
      exact hv.ne_nil (Option.some.inj hlast)
    have hchildren : childTypes (typeToLogicalTypeFuel castUInt8 fuel) body junk = .ok [K, V] := by
      rw [childTypes_eq_ok, hcut]
      exact ⟨hend, .cons hkey (.cons hvalue .nil)⟩
    rw [typeToLogicalTypeFuel_map castUInt8 fuel hj, hchildren]
    rfl
  | _, _, @Lenient.struct _ body junk fields hj h, fuel + 1, hfuel => by
    simp only [List.length_append, List.length_cons] at hfuel
    have hlen : ∀ p ∈ pieces 0 body, p.length ≤ fuel := by
      intro p hp
      have := length_le_of_mem_cut hp
      omega
    have hend : ¬ EndsEmpty 0 body := by
      intro hlast
      exact h.nil_notMem (List.mem_of_getLast? hlast)
    have hchildren : childTypes (structChild (typeToLogicalTypeFuel castUInt8 fuel)) body junk =
        .ok fields := childTypes_eq_ok.2 ⟨hend, forall₂_of_lenientFields h hlen⟩
    rw [typeToLogicalTypeFuel_struct castUInt8 fuel hj, hchildren]
    rfl

/-- Every piece for a field is parsed. -/
theorem forall₂_of_lenientFields : ∀ {ps : List (List Char)} {fields : List (String × LogicalType)},
    LenientFields castUInt8 ps fields → ∀ {fuel : ℕ}, (∀ p ∈ ps, p.length ≤ fuel) →
      List.Forall₂ (fun p x => structChild (typeToLogicalTypeFuel castUInt8 fuel) p = .ok x) ps fields
  | _, _, .nil, _, _ => .nil
  | _, _, @LenientFields.cons _ name type T ps fields hname htype hps, fuel, hfuel => by
    obtain ⟨hfield, hrest⟩ := List.forall_mem_cons.1 hfuel
    rw [List.length_append, List.length_cons] at hfield
    refine .cons ?_ (forall₂_of_lenientFields hps hrest)
    rw [structChild_field _ hname, ok_of_lenient htype (by omega)]
    rfl

end

theorem lenientField_of_ok {parse : List Char → Except Error LogicalType}
    (hparse : ∀ text T, parse text = .ok T → Lenient castUInt8 text T) {p : List Char}
    {x : String × LogicalType} (h : structChild parse p = .ok x) : LenientField castUInt8 p := by
  rcases field_cases p with hcolon | ⟨name, type, rfl, hname⟩
  · rw [structChild_noColon parse hcolon] at h
    cases h
  · rw [structChild_field parse hname] at h
    obtain ⟨T, hT, -⟩ := bind_eq_ok.1 h
    exact ⟨name, type, T, rfl, hname, hparse type T hT⟩

end Accepts

/-! ### The parser reads behind the overrunning texts -/

section Overruns

variable {castUInt8}

/-- The exceptions of a decimal type. -/
theorem decimal_error (hparen : ∀ s : String, ')' ∈ s.toList → castUInt8 s = none) {fuel : ℕ}
    {a junk : List Char} (ha : ')' ∉ a) {e : Error}
    (h : typeToLogicalTypeFuel castUInt8 (fuel + 1) ("decimal(".toList ++ (a ++ ')' :: junk)) =
      .error e) : e.type = .conversion ∨ e.type = .internal := by
  have hcast : ∀ {s : List Char} {e : Error}, castOperation castUInt8 s = .error e →
      e.type = .conversion := by
    intro s e he
    rw [castOperation] at he
    cases hs : castUInt8 (String.ofList s) with
    | none =>
      rw [hs] at he
      cases he
      rfl
    | some n =>
      rw [hs] at he
      cases he
  rw [typeToLogicalTypeFuel_decimal castUInt8 fuel ha] at h
  by_cases hcomma : ',' ∈ a
  · obtain ⟨w, s, rfl, hw⟩ := List.eq_append_cons_of_mem hcomma
    rw [decimalType_comma castUInt8 hw] at h
    rcases bind_eq_error.1 h with h | ⟨prec, -, h⟩
    · exact Or.inl (hcast h)
    rcases bind_eq_error.1 h with h | ⟨scale, -, h⟩
    · exact Or.inl (hcast h)
    rw [makeDecimal] at h
    split_ifs at h
    cases h
    exact Or.inr rfl
  · obtain ⟨message, herror⟩ := decimalType_noComma castUInt8 hcomma junk hparen
      ("decimal(".toList.length + a.length)
    rw [herror] at h
    cases h
    exact Or.inl rfl

theorem mapType_error {keyVal : List LogicalType} {e : Error} (h : mapType keyVal = .error e) :
    e.type = .notImplemented := by
  match keyVal, h with
  | [], h => cases h; rfl
  | [_], h => cases h; rfl
  | [_, _], h => cases h
  | _ :: _ :: _ :: _, h => cases h; rfl

/-- Where the parser reads behind the end, the text overruns. -/
theorem overruns_of_undefined (hparen : ∀ s : String, ')' ∈ s.toList → castUInt8 s = none)
    {fuel : ℕ} {text : List Char} {e : Error}
    (h : typeToLogicalTypeFuel castUInt8 fuel text = .error e) (he : e.type = .undefined) :
    Overruns castUInt8 text := by
  induction fuel generalizing text e with
  | zero =>
    cases h
    cases he
  | succ fuel ih =>
    cases textKind castUInt8 text with
    | primitive hprim =>
      rw [typeToLogicalTypeFuel, hprim] at h
      cases h
    | decimal ha junk =>
      rcases decimal_error hparen ha h with htype | htype
      · rw [htype] at he
        cases he
      · rw [htype] at he
        cases he
    | array c hj =>
      rw [typeToLogicalTypeFuel_array castUInt8 fuel hj] at h
      rcases bind_eq_error.1 h with h | ⟨T, -, h⟩
      · exact .array hj (ih h he)
      · cases h
    | map body hj =>
      rw [typeToLogicalTypeFuel_map castUInt8 fuel hj] at h
      rcases bind_eq_error.1 h with h | ⟨keyVal, -, h⟩
      · rcases childTypes_eq_error.1 h with ⟨pre, p, post, hreached, hpre, hp⟩ | ⟨hend, hall, -⟩
        · refine .mapChild hj hreached (fun x hx => ?_) (ih hp he)
          obtain ⟨T, hT⟩ := hpre x hx
          exact ⟨T, lenient_of_ok hparen hT⟩
        · refine .mapEnd hj hend fun x hx => ?_
          obtain ⟨T, hT⟩ := hall x hx
          exact ⟨T, lenient_of_ok hparen hT⟩
      · rw [mapType_error h] at he
        cases he
    | struct body hj =>
      rw [typeToLogicalTypeFuel_struct castUInt8 fuel hj] at h
      have hfield : ∀ {x : List Char},
          (∃ y, structChild (typeToLogicalTypeFuel castUInt8 fuel) x = .ok y) →
            LenientField castUInt8 x := by
        rintro x ⟨y, hy⟩
        exact lenientField_of_ok (fun _ _ => lenient_of_ok hparen) hy
      rcases bind_eq_error.1 h with h | ⟨types, -, h⟩
      · rcases childTypes_eq_error.1 h with ⟨pre, p, post, hreached, hpre, hp⟩ | ⟨hend, hall, -⟩
        · rcases field_cases p with hcolon | ⟨name, type, rfl, hname⟩
          · rw [structChild_noColon _ hcolon] at hp
            cases hp
            cases he
          · rw [structChild_field _ hname] at hp
            rcases bind_eq_error.1 hp with hp | ⟨T, -, hp⟩
            · exact .structChild hj hreached (fun x hx => hfield (hpre x hx)) hname (ih hp he)
            · cases hp
        · exact .structEnd hj hend fun x hx => hfield (hall x hx)
      · cases h
    | unknown hunknown =>
      rw [hunknown fuel] at h
      cases h
      cases he

theorem structChild_of_lenientField {p : List Char} (h : LenientField castUInt8 p) {fuel : ℕ}
    (hfuel : p.length ≤ fuel) :
    ∃ x, structChild (typeToLogicalTypeFuel castUInt8 fuel) p = .ok x := by
  obtain ⟨name, type, T, rfl, hname, htype⟩ := h
  rw [List.length_append, List.length_cons] at hfuel
  refine ⟨(String.ofList name, T), ?_⟩
  rw [structChild_field _ hname, ok_of_lenient htype (by omega)]
  rfl

/-- An overrunning text is read behind. -/
theorem readBehindEnd_of_overruns {text : List Char} (h : Overruns castUInt8 text) {fuel : ℕ}
    (hfuel : text.length < fuel) : typeToLogicalTypeFuel castUInt8 fuel text = readBehindEnd := by
  induction h generalizing fuel with
  | array hj _ ih =>
    cases fuel with
    | zero => exact absurd hfuel (Nat.not_lt_zero _)
    | succ fuel =>
      simp only [List.length_append, List.length_cons] at hfuel
      rw [typeToLogicalTypeFuel_array castUInt8 fuel hj, ih (by omega)]
      rfl
  | @mapChild body junk p pre post hj hreached hpre _ ih =>
    cases fuel with
    | zero => exact absurd hfuel (Nat.not_lt_zero _)
    | succ fuel =>
      have hlen : ∀ x ∈ pre ++ p :: post, x.length < fuel := by
        intro x hx
        have := length_of_mem_reached (hreached ▸ hx)
        simp only [List.length_append, List.length_cons] at hfuel
        have hkey : "map<".toList.length = 4 := rfl
        omega
      have hchildren : childTypes (typeToLogicalTypeFuel castUInt8 fuel) body junk =
          readBehindEnd := by
        refine childTypes_eq_error.2 (Or.inl ⟨pre, p, post, hreached, fun x hx => ?_, ?_⟩)
        · obtain ⟨T, hT⟩ := hpre x hx
          exact ⟨T, ok_of_lenient hT (hlen x (by simp [hx]))⟩
        · exact ih (hlen p (by simp))
      rw [typeToLogicalTypeFuel_map castUInt8 fuel hj, hchildren]
      rfl
  | @mapEnd body junk hj hend hall =>
    cases fuel with
    | zero => exact absurd hfuel (Nat.not_lt_zero _)
    | succ fuel =>
      have hchildren : childTypes (typeToLogicalTypeFuel castUInt8 fuel) body junk =
          readBehindEnd := by
        refine childTypes_eq_error.2 (Or.inr ⟨hend, fun x hx => ?_, rfl⟩)
        obtain ⟨T, hT⟩ := hall x hx
        have := length_of_mem_reached hx
        simp only [List.length_append, List.length_cons] at hfuel
        have hkey : "map<".toList.length = 4 := rfl
        exact ⟨T, ok_of_lenient hT (by omega)⟩
      rw [typeToLogicalTypeFuel_map castUInt8 fuel hj, hchildren]
      rfl
  | @structChild body junk name type pre post hj hreached hpre hname _ ih =>
    cases fuel with
    | zero => exact absurd hfuel (Nat.not_lt_zero _)
    | succ fuel =>
      have hlen : ∀ x ∈ pre ++ (name ++ ':' :: type) :: post, x.length ≤ fuel := by
        intro x hx
        have := length_of_mem_reached (hreached ▸ hx)
        simp only [List.length_append, List.length_cons] at hfuel
        omega
      have hchildren : childTypes (ICUtils.structChild (typeToLogicalTypeFuel castUInt8 fuel)) body
          junk = readBehindEnd := by
        refine childTypes_eq_error.2 (Or.inl ⟨pre, _, post, hreached, fun x hx => ?_, ?_⟩)
        · exact structChild_of_lenientField (hpre x hx) (hlen x (by simp [hx]))
        · have hfield := hlen (name ++ ':' :: type) (by simp)
          rw [List.length_append, List.length_cons] at hfield
          rw [structChild_field _ hname, ih (by omega)]
          rfl
      rw [typeToLogicalTypeFuel_struct castUInt8 fuel hj, hchildren]
      rfl
  | @structEnd body junk hj hend hall =>
    cases fuel with
    | zero => exact absurd hfuel (Nat.not_lt_zero _)
    | succ fuel =>
      have hchildren : childTypes (ICUtils.structChild (typeToLogicalTypeFuel castUInt8 fuel)) body
          junk = readBehindEnd := by
        refine childTypes_eq_error.2 (Or.inr ⟨hend, fun x hx => ?_, rfl⟩)
        have := length_of_mem_reached hx
        simp only [List.length_append, List.length_cons] at hfuel
        exact structChild_of_lenientField (hall x hx) (by omega)
      rw [typeToLogicalTypeFuel_struct castUInt8 fuel hj, hchildren]
      rfl

/-- The fuel is enough. -/
theorem not_diverged (hparen : ∀ s : String, ')' ∈ s.toList → castUInt8 s = none) {fuel : ℕ}
    {text : List Char} (hfuel : text.length < fuel) {e : Error}
    (h : typeToLogicalTypeFuel castUInt8 fuel text = .error e) : e.type ≠ .diverged := by
  induction fuel generalizing text e with
  | zero => exact absurd hfuel (Nat.not_lt_zero _)
  | succ fuel ih =>
    cases textKind castUInt8 text with
    | primitive hprim =>
      rw [typeToLogicalTypeFuel, hprim] at h
      cases h
    | decimal ha junk =>
      intro he
      rcases decimal_error hparen ha h with htype | htype
      · rw [htype] at he
        cases he
      · rw [htype] at he
        cases he
    | array c hj =>
      simp only [List.length_append, List.length_cons] at hfuel
      rw [typeToLogicalTypeFuel_array castUInt8 fuel hj] at h
      rcases bind_eq_error.1 h with h | ⟨T, -, h⟩
      · exact ih (by omega) h
      · cases h
    | map body hj =>
      simp only [List.length_append, List.length_cons] at hfuel
      have hkey : "map<".toList.length = 4 := rfl
      rw [typeToLogicalTypeFuel_map castUInt8 fuel hj] at h
      rcases bind_eq_error.1 h with h | ⟨keyVal, -, h⟩
      · rcases childTypes_eq_error.1 h with ⟨pre, p, post, hreached, -, hp⟩ | ⟨-, -, h⟩
        · have hlen := length_of_mem_reached (p := p) (by rw [hreached]; simp)
          exact ih (by omega) hp
        · cases h
          exact nofun
      · rw [mapType_error h]
        exact nofun
    | struct body hj =>
      simp only [List.length_append, List.length_cons] at hfuel
      rw [typeToLogicalTypeFuel_struct castUInt8 fuel hj] at h
      rcases bind_eq_error.1 h with h | ⟨types, -, h⟩
      · rcases childTypes_eq_error.1 h with ⟨pre, p, post, hreached, -, hp⟩ | ⟨-, -, h⟩
        · have hlen := length_of_mem_reached (p := p) (by rw [hreached]; simp)
          rcases field_cases p with hcolon | ⟨name, type, rfl, hname⟩
          · rw [structChild_noColon _ hcolon] at hp
            cases hp
            exact nofun
          · rw [structChild_field _ hname] at hp
            rw [List.length_append, List.length_cons] at hlen
            rcases bind_eq_error.1 hp with hp | ⟨T, -, hp⟩
            · exact ih (by omega) hp
            · cases hp
        · cases h
          exact nofun
      · cases h
    | unknown hunknown =>
      rw [hunknown fuel] at h
      cases h
      exact nofun

end Overruns

end DuckIceberg
