import DuckIceberg.Lib.NormMap

/-!
# Byte strings of the standard library

The string operations the code uses, over the list of characters of a string.  `lower` is the
ASCII lower case, and two strings are equal ignoring case when their lower cases are equal.  A
position is the index of a character, and a search that fails returns `none` where the library
returns `npos`.
-/

namespace Strings

/-! ### Comparison -/

/-- `StringUtil::Lower` -/
def lower (s : String) : String := String.ofList (s.toList.map Char.toLower)

theorem toLower_toLower (c : Char) : c.toLower.toLower = c.toLower := by
  unfold Char.toLower
  by_cases h : c.val ≥ 'A'.val ∧ c.val ≤ 'Z'.val
  · rw [dif_pos h]
    refine dif_neg fun h' => ?_
    have hA : 'A'.val.toNat = 65 := rfl
    have hZ : 'Z'.val.toNat = 90 := rfl
    have hshift : ('a'.val - 'A'.val).toNat = 32 := rfl
    simp only [ge_iff_le, UInt32.le_iff_toNat_le, UInt32.toNat_add, hA, hZ, hshift] at h h'
    omega
  · rw [dif_neg h, dif_neg h]

@[simp] theorem lower_lower (s : String) : lower (lower s) = lower s := by
  simp only [lower, String.toList_ofList, List.map_map]
  congr 2
  funext c
  exact toLower_toLower c

/-- `StringUtil::CIEquals` -/
def ciEquals (a b : String) : Prop := lower a = lower b

instance (a b : String) : Decidable (ciEquals a b) := inferInstanceAs (Decidable (lower a = lower b))

/-- `case_insensitive_map_t` -/
abbrev CIMap (β : Type*) := NormMap lower β

/-- `StringUtil::StartsWith` -/
def startsWith (s pat : String) : Bool := pat.toList.isPrefixOf s.toList

/-- `StringUtil::EndsWith` -/
def endsWith (s pat : String) : Bool := pat.toList.isSuffixOf s.toList

theorem startsWith_iff {s pat : String} : startsWith s pat = true ↔ pat.toList <+: s.toList :=
  List.isPrefixOf_iff_prefix

theorem endsWith_iff {s pat : String} : endsWith s pat = true ↔ pat.toList <:+ s.toList :=
  List.isSuffixOf_iff_suffix

/-! ### Search -/

/-- The first position at which `pat` occurs. -/
def findList (pat : List Char) : List Char → Option ℕ
  | [] => if pat = [] then some 0 else none
  | c :: cs => if pat.isPrefixOf (c :: cs) then some 0 else (findList pat cs).map (· + 1)

/-- The last position at which `pat` occurs. -/
def rfindList (pat : List Char) : List Char → Option ℕ
  | [] => if pat = [] then some 0 else none
  | c :: cs =>
    match rfindList pat cs with
    | some i => some (i + 1)
    | none => if pat.isPrefixOf (c :: cs) then some 0 else none

/-- `s.find(pat)` -/
def find (s pat : String) : Option ℕ := findList pat.toList s.toList

/-- `s.rfind(pat)` -/
def rfind (s pat : String) : Option ℕ := rfindList pat.toList s.toList

/-- `s.substr(pos)`, for a position in the string -/
def substrFrom (s : String) (pos : ℕ) : String := String.ofList (s.toList.drop pos)

/-- `s.substr(pos, len)`, for a position in the string -/
def substr (s : String) (pos len : ℕ) : String := String.ofList ((s.toList.drop pos).take len)

/-- The pieces between the delimiters. -/
def splitList (delimiter : Char) : List Char → List (List Char)
  | [] => [[]]
  | c :: cs =>
    if c = delimiter then [] :: splitList delimiter cs
    else
      match splitList delimiter cs with
      | [] => [[c]]
      | p :: ps => (c :: p) :: ps

/-- `StringUtil::Split`, which gives no last piece that is empty -/
def split (s : String) (delimiter : Char) : List String :=
  let pieces := splitList delimiter s.toList
  (if pieces.getLast? = some [] then pieces.dropLast else pieces).map String.ofList

theorem findList_char {c : Char} {a b : List Char} (h : c ∉ a) :
    findList [c] (a ++ c :: b) = some a.length := by
  induction a with
  | nil => simp [findList]
  | cons x a ih =>
    simp only [List.mem_cons, not_or] at h
    simp [findList, h.1, ih h.2]

theorem findList_none {c : Char} {b : List Char} (h : c ∉ b) : findList [c] b = none := by
  induction b with
  | nil => simp [findList]
  | cons x b ih =>
    simp only [List.mem_cons, not_or] at h
    simp [findList, h.1, ih h.2]

/-- A character is found where it occurs first. -/
theorem findList_cases (c : Char) (l : List Char) :
    c ∉ l ∧ findList [c] l = none ∨
      ∃ a b, l = a ++ c :: b ∧ c ∉ a ∧ findList [c] l = some a.length := by
  by_cases hc : c ∈ l
  · obtain ⟨a, b, rfl, ha⟩ := List.eq_append_cons_of_mem hc
    exact Or.inr ⟨a, b, rfl, ha, findList_char ha⟩
  · exact Or.inl ⟨hc, findList_none hc⟩

/-- A text is found at the beginning when the other begins with it. -/
theorem findList_eq_zero_iff {pat l : List Char} (hpat : pat ≠ []) :
    findList pat l = some 0 ↔ pat <+: l := by
  cases l with
  | nil => simp [findList, hpat]
  | cons c cs =>
    rw [findList, ← List.isPrefixOf_iff_prefix]
    by_cases h : pat.isPrefixOf (c :: cs) = true
    · rw [if_pos h]
      exact iff_of_true rfl h
    · rw [if_neg h]
      refine iff_of_false (fun hmap => ?_) h
      obtain ⟨i, -, hi⟩ := Option.map_eq_some_iff.1 hmap
      exact absurd hi (Nat.succ_ne_zero i)

theorem rfindList_none {c : Char} {b : List Char} (h : c ∉ b) : rfindList [c] b = none := by
  induction b with
  | nil => simp [rfindList]
  | cons x b ih =>
    simp only [List.mem_cons, not_or] at h
    simp [rfindList, h.1, ih h.2]

theorem rfindList_char {c : Char} {b : List Char} (h : c ∉ b) (a : List Char) :
    rfindList [c] (a ++ c :: b) = some a.length := by
  induction a with
  | nil => simp [rfindList, rfindList_none h]
  | cons x a ih => simp [rfindList, ih]

/-- A character is found where it occurs last. -/
theorem rfindList_cases (c : Char) (l : List Char) :
    c ∉ l ∧ rfindList [c] l = none ∨
      ∃ a b, l = a ++ c :: b ∧ c ∉ b ∧ rfindList [c] l = some a.length := by
  induction l with
  | nil => exact Or.inl ⟨List.not_mem_nil, rfindList_none List.not_mem_nil⟩
  | cons x l ih =>
    rcases ih with ⟨hl, -⟩ | ⟨a, b, rfl, hb, -⟩
    · by_cases hx : x = c
      · subst hx
        exact Or.inr ⟨[], l, rfl, hl, rfindList_char hl []⟩
      · have hmem : c ∉ x :: l := by
          simp only [List.mem_cons, not_or]
          exact ⟨Ne.symm hx, hl⟩
        exact Or.inl ⟨hmem, rfindList_none hmem⟩
    · exact Or.inr ⟨x :: a, b, rfl, hb, rfindList_char hb (x :: a)⟩

theorem splitList_of_notMem {d : Char} {a : List Char} (h : d ∉ a) : splitList d a = [a] := by
  induction a with
  | nil => rfl
  | cons x a ih =>
    simp only [List.mem_cons, not_or] at h
    simp [splitList, Ne.symm h.1, ih h.2]

theorem splitList_append {d : Char} {a : List Char} (h : d ∉ a) (b : List Char) :
    splitList d (a ++ d :: b) = a :: splitList d b := by
  induction a with
  | nil => simp [splitList]
  | cons x a ih =>
    simp only [List.mem_cons, not_or] at h
    simp [splitList, Ne.symm h.1, ih h.2]

/-- The first delimiter of a list is where it is. -/
theorem append_delimiter_inj {d : Char} {a a' b b' : List Char} (h : d ∉ a) (h' : d ∉ a')
    (heq : a ++ d :: b = a' ++ d :: b') : a = a' ∧ b = b' := by
  have hpieces := congrArg (splitList d) heq
  rw [splitList_append h, splitList_append h'] at hpieces
  obtain ⟨rfl, -⟩ := List.cons.inj hpieces
  exact ⟨rfl, (List.cons.inj (List.append_cancel_left heq)).2⟩

/-- There is one piece more than there are delimiters. -/
theorem length_splitList (d : Char) (l : List Char) :
    (splitList d l).length = l.count d + 1 := by
  induction l with
  | nil => rfl
  | cons c l ih =>
    by_cases hc : c = d
    · rw [splitList, if_pos hc, List.length_cons, ih, hc, List.count_cons_self]
    · rw [splitList, if_neg hc, List.count_cons_of_ne hc, ← ih]
      cases hl : splitList d l with
      | nil =>
        rw [hl] at ih
        simp at ih
      | cons p ps => rfl

/-- A text is not one that does not begin the way it does. -/
theorem ne_of_startsWith {s t pat : String} (hs : startsWith s pat = true)
    (ht : startsWith t pat = false) : s ≠ t := by
  rintro rfl
  rw [hs] at ht
  cases ht

/-! ### Numbers -/

/-- `isspace` -/
def isSpace (c : Char) : Bool :=
  c = ' ' || c = '\t' || c = '\n' || c = '\x0b' || c = '\x0c' || c = '\r'

/-- The value of a run of digits. -/
def digitsValue (l : List Char) : ℕ := l.foldl (fun n c => 10 * n + (c.toNat - 48)) 0

/-- The digits a string begins with, as a number. -/
def leadingDigits (l : List Char) : Option ℕ :=
  match l.takeWhile Char.isDigit with
  | [] => none
  | ds => some (digitsValue ds)

/-- The number a string begins with after white space, as `strtol` reads it. -/
def leadingInt (l : List Char) : Option ℤ :=
  match l.dropWhile isSpace with
  | '-' :: cs => (leadingDigits cs).map fun n => -(n : ℤ)
  | '+' :: cs => (leadingDigits cs).map fun n => (n : ℤ)
  | cs => (leadingDigits cs).map fun n => (n : ℤ)

theorem digitsValue_toDigits (n : ℕ) : digitsValue (Nat.toDigits 10 n) = n := by
  have hfold := Nat.ofDigitChars_ten_toDigits (n := n)
  rw [Nat.ofDigitChars_eq_foldl] at hfold
  exact hfold

theorem isDigit_toDigits {n : ℕ} {c : Char} (h : c ∈ Nat.toDigits 10 n) : c.isDigit = true :=
  Nat.isDigit_of_mem_toDigits (by omega) (by omega) h

/-- A character that is no digit is not in a numeral. -/
theorem notMem_toDigits {c : Char} (hc : c.isDigit = false) (n : ℕ) : c ∉ Nat.toDigits 10 n := by
  intro h
  rw [isDigit_toDigits h] at hc
  cases hc

/-- The digits of a numeral, up to a character that is no digit. -/
theorem leadingDigits_numeral (n : ℕ) {rest : List Char}
    (hrest : ∀ c ∈ rest.head?, c.isDigit = false) :
    leadingDigits (Nat.toDigits 10 n ++ rest) = some n := by
  have htake : (Nat.toDigits 10 n ++ rest).takeWhile Char.isDigit = Nat.toDigits 10 n := by
    rw [List.takeWhile_append_of_pos fun c hc => isDigit_toDigits hc]
    cases rest with
    | nil => rw [List.takeWhile_nil, List.append_nil]
    | cons c rest =>
      have hc : c.isDigit = false := hrest c rfl
      rw [List.takeWhile_cons_of_neg (by simp [hc]), List.append_nil]
  rw [leadingDigits, htake]
  cases hdigits : Nat.toDigits 10 n with
  | nil => exact absurd hdigits Nat.toDigits_ne_nil
  | cons c cs =>
    have hvalue := digitsValue_toDigits n
    rw [hdigits] at hvalue
    exact congrArg some hvalue

/-- A numeral after blanks is read as its number. -/
theorem leadingInt_numeral {blanks : List Char} (hblanks : ∀ c ∈ blanks, isSpace c = true) (n : ℕ)
    {rest : List Char} (hrest : ∀ c ∈ rest.head?, c.isDigit = false) :
    leadingInt (blanks ++ Nat.toDigits 10 n ++ rest) = some (n : ℤ) := by
  have hdigits := leadingDigits_numeral n hrest
  rw [leadingInt, List.append_assoc, List.dropWhile_append_of_pos hblanks]
  cases hnum : Nat.toDigits 10 n with
  | nil => exact absurd hnum Nat.toDigits_ne_nil
  | cons c cs =>
    have hc : c.isDigit = true := isDigit_toDigits (n := n) (by rw [hnum]; exact List.mem_cons_self)
    have hspace : isSpace c = false := by
      by_contra h
      simp only [isSpace, Bool.not_eq_false, Bool.or_eq_true, decide_eq_true_eq] at h
      rcases h with ((((rfl | rfl) | rfl) | rfl) | rfl) | rfl <;> revert hc <;> decide
    rw [hnum] at hdigits
    rw [List.cons_append, List.dropWhile_cons_of_neg (by simp [hspace])]
    split
    · rename_i heq
      cases heq
      exact absurd hc (by decide)
    · rename_i heq
      cases heq
      exact absurd hc (by decide)
    · rw [← List.cons_append, hdigits]
      rfl

end Strings
