import DuckIceberg.Catalog.TableCredentials

/-!
# The names of secrets

The secrets of a table are named after its schema, its name and, for a storage credential, the index
and the scope of the credential, with underscores in between.

* `secretName_iff`: which tables have secrets of one name;
* `ciEquals_secretName_iff`: which have secrets whose names are equal up to case.
-/

namespace DuckIceberg

open Strings Json IcebergUtils IRCAPI ICTableEntry

/-! ### Two names -/

/-- `std::replace` of `'_'` by `'-'`, in a list of characters -/
def hyphens (s : List Char) : List Char := s.map fun c => if c = '_' then '-' else c

/-- A name that is made of a schema and a table. -/
def nameOf (start middle s t : List Char) : List Char :=
  start ++ ((hyphens s ++ middle) ++ '_' :: '_' :: (s ++ '_' :: '_' :: t))

/-- A character map under which no other character becomes an underscore. -/
def KeepsUnderscore (f : Char → Char) : Prop := ∀ c, f c = '_' ↔ c = '_'

theorem keepsUnderscore_id : KeepsUnderscore id := fun _ => Iff.rfl

theorem keepsUnderscore_toLower : KeepsUnderscore Char.toLower := by
  intro c
  unfold Char.toLower
  split
  · rename_i h
    constructor
    · intro heq
      -- a letter stays a letter
      have hval : (c.val + ('a'.val - 'A'.val)).toNat = 95 :=
        congrArg (fun c : Char => c.val.toNat) heq
      have hle : c.val.toNat ≤ 90 := UInt32.le_iff_toNat_le.1 h.2
      have hge : 65 ≤ c.val.toNat := UInt32.le_iff_toNat_le.1 h.1
      have hdiff : ('a'.val - 'A'.val).toNat = 32 := by decide
      rw [UInt32.toNat_add, hdiff] at hval
      omega
    · rintro rfl
      revert h
      decide
  · exact Iff.rfl

theorem hyphens_map {f : Char → Char} (hf : KeepsUnderscore f) {s s' : List Char}
    (h : s.map f = s'.map f) : (hyphens s).map f = (hyphens s').map f := by
  have hcomm : ∀ s : List Char,
      (hyphens s).map f = (s.map f).map fun c => if c = '_' then f '-' else c := by
    intro s
    rw [hyphens, List.map_map, List.map_map]
    refine List.map_congr_left fun c _ => ?_
    by_cases hc : c = '_'
    · have hfc : f c = '_' := (hf c).2 hc
      rw [Function.comp_apply, Function.comp_apply, if_pos hc, if_pos hfc]
    · have hfc : f c ≠ '_' := fun h => hc ((hf c).1 h)
      rw [Function.comp_apply, Function.comp_apply, if_neg hc, if_neg hfc]
  rw [hcomm, hcomm, h]

/-- **Two names are equal** up to such a map when the schemas are, and what follows them is. -/
theorem nameOf_iff {f : Char → Char} (hf : KeepsUnderscore f) (start : List Char)
    {middle : List Char} (hmiddle : '_' ∉ middle) (s t s' t' : List Char) :
    (nameOf start middle s t).map f = (nameOf start middle s' t').map f ↔
      s.map f = s'.map f ∧ t.map f = t'.map f := by
  have hunderscore : f '_' = '_' := (hf '_').2 rfl
  -- the schema is written with hyphens first, so that the first underscore ends it
  have hfree : ∀ s : List Char, '_' ∉ (hyphens s ++ middle).map f := by
    intro s h
    obtain ⟨c, hc, heq⟩ := List.mem_map.1 h
    rw [hf] at heq
    subst heq
    rcases List.mem_append.1 hc with hc | hc
    · obtain ⟨c, -, heq⟩ := List.mem_map.1 hc
      split_ifs at heq with h
      · cases heq
      · exact h heq
    · exact hmiddle hc
  have hsplit : ∀ s t : List Char, (nameOf start middle s t).map f = start.map f ++
      ((hyphens s ++ middle).map f ++ '_' :: ('_' :: (s.map f ++ '_' :: '_' :: t.map f))) := by
    intro s t
    simp only [nameOf, List.map_append, List.map_cons, hunderscore]
  rw [hsplit, hsplit, List.append_cancel_left_eq]
  constructor
  · intro h
    obtain ⟨hhead, htail⟩ := append_delimiter_inj (hfree s) (hfree s') h
    have hlen : (s.map f).length = (s'.map f).length := by
      have hlen := congrArg List.length hhead
      simp only [hyphens, List.length_map, List.length_append] at hlen ⊢
      omega
    obtain ⟨hs, hrest⟩ := List.append_inj (List.cons.inj htail).2 hlen
    exact ⟨hs, (List.cons.inj (List.cons.inj hrest).2).2⟩
  · rintro ⟨hs, ht⟩
    rw [List.map_append, List.map_append, hyphens_map hf hs, hs, ht]

/-- What the names of all secrets begin with. -/
@[irreducible] def nameStart : List Char := "__internal_ic_uuid-".toList

/-- What follows the schema. -/
@[irreducible] def nameMiddle : List Char := "-table".toList

theorem nameStart_eq : nameStart = "__internal_ic_".toList ++ hyphens "uuid-".toList := by
  unfold nameStart
  decide

theorem nameMiddle_eq : nameMiddle = hyphens ("-".toList ++ "table".toList) := by
  unfold nameMiddle
  decide

theorem notMem_nameMiddle : '_' ∉ nameMiddle := by
  unfold nameMiddle
  decide

/-- The name of a secret of a table, with what is added to it. -/
def secretName (schema table added : String) : String :=
  String.ofList (nameOf nameStart nameMiddle schema.toList (table.toList ++ added.toList))

/-- The characters of a name, before its constant parts are looked at. -/
theorem toList_parts (a b s c d u t x : String) :
    (a ++ replaceUnderscores (b ++ s ++ c ++ d) ++ u ++ s ++ u ++ t ++ x).toList =
      (a.toList ++ hyphens b.toList) ++ ((hyphens s.toList ++ hyphens (c.toList ++ d.toList)) ++
        (u.toList ++ (s.toList ++ (u.toList ++ (t.toList ++ x.toList))))) := by
  simp only [replaceUnderscores, hyphens, String.toList_append, String.toList_ofList,
    List.map_append, List.append_assoc]

theorem secretBaseName_append (catalog : IRCatalogConfig) (schema table added : String) :
    secretBaseName (createTable catalog schema table) ++ added = secretName schema table added := by
  have hparts := toList_parts "__internal_ic_" "uuid-" schema "-" "table" "__" table added
  have hunderscores : ∀ l : List Char, "__".toList ++ l = '_' :: '_' :: l := fun l => rfl
  rw [← nameStart_eq, ← nameMiddle_eq, hunderscores, hunderscores] at hparts
  rw [secretName, nameOf, ← hparts, String.ofList_toList]
  rfl

/-- **Which secrets have one name.** -/
theorem secretName_iff (s t x s' t' x' : String) :
    secretName s t x = secretName s' t' x' ↔ s = s' ∧ t ++ x = t' ++ x' := by
  have h := nameOf_iff keepsUnderscore_id nameStart notMem_nameMiddle s.toList
    (t.toList ++ x.toList) s'.toList (t'.toList ++ x'.toList)
  simp only [List.map_id] at h
  rw [secretName, secretName, String.ofList_inj, h, String.toList_inj, ← String.toList_append,
    ← String.toList_append, String.toList_inj]

/-- Which secrets have names that are equal up to case. -/
theorem ciEquals_secretName_iff (s t x s' t' x' : String) :
    ciEquals (secretName s t x) (secretName s' t' x') ↔
      ciEquals s s' ∧ ciEquals (t ++ x) (t' ++ x') := by
  have h := nameOf_iff keepsUnderscore_toLower nameStart notMem_nameMiddle s.toList
    (t.toList ++ x.toList) s'.toList (t'.toList ++ x'.toList)
  simp only [ciEquals, lower, secretName, String.toList_ofList, String.ofList_inj,
    String.toList_append]
  exact h

end DuckIceberg
