import DuckIceberg.Lib.Strings

/-!
# Where a text occurs in another

`rfindList` finds an occurrence exactly when there is one.  A text that has no delimiter in it occurs
on one side of a delimiter, and the occurrence that a delimiter marks is the first or the last one when
there is no other before or after it.
-/

namespace Strings

variable {c : Char} {pat r s l : List Char}

/-! ### The first occurrence -/

/-- A text without the delimiter begins before it or not at all. -/
theorem prefix_of_prefix_append (hc : c ∉ pat) (h : pat <+: r ++ c :: s) : pat <+: r := by
  obtain ⟨t, ht⟩ := h
  rcases List.append_eq_append_iff.1 ht with ⟨a, rfl, -⟩ | ⟨a, rfl, ha⟩
  · exact ⟨a, rfl⟩
  · cases a with
    | nil => simp
    | cons x a =>
      obtain ⟨rfl, -⟩ := List.cons.inj ha
      simp at hc

/-- What follows a delimiter is found first exactly when it does not occur before it. -/
theorem findList_delimiter_iff (hc : c ∉ pat) (hpat : pat ≠ []) (rest : List Char) :
    findList pat (r ++ c :: (pat ++ rest)) = some (r.length + 1) ↔ ¬ pat <:+: r := by
  induction r with
  | nil =>
    have hnot : ¬ pat.isPrefixOf (c :: (pat ++ rest)) = true := by
      rw [List.isPrefixOf_iff_prefix]
      intro h
      exact hpat (List.prefix_nil.1 (prefix_of_prefix_append (r := []) hc h))
    have hzero : findList pat (pat ++ rest) = some 0 :=
      (findList_eq_zero_iff hpat).2 (List.prefix_append pat rest)
    rw [List.nil_append, findList, if_neg hnot, hzero, List.infix_nil]
    simpa using hpat
  | cons x r ih =>
    rw [List.cons_append, findList, List.infix_cons_iff]
    by_cases h : pat <+: x :: r
    · have hpre : pat.isPrefixOf (x :: (r ++ c :: (pat ++ rest))) = true :=
        List.isPrefixOf_iff_prefix.2 (h.trans (List.prefix_append (x :: r) _))
      rw [if_pos hpre]
      simp [h]
    · have hnot : ¬ pat.isPrefixOf (x :: (r ++ c :: (pat ++ rest))) = true := by
        rw [List.isPrefixOf_iff_prefix]
        exact fun hpre => h (prefix_of_prefix_append (r := x :: r) hc hpre)
      rw [if_neg hnot, List.length_cons, or_iff_right h, ← ih]
      constructor
      · intro heq
        obtain ⟨i, hi, heq⟩ := Option.map_eq_some_iff.1 heq
        rw [hi, Nat.succ_injective heq]
      · intro heq
        rw [heq]
        rfl

/-! ### The last occurrence -/

theorem rfindList_eq_none_iff : rfindList pat l = none ↔ ¬ pat <:+: l := by
  induction l with
  | nil =>
    rw [rfindList, List.infix_nil]
    split_ifs with h <;> simp [h]
  | cons x l ih =>
    rw [rfindList, List.infix_cons_iff, ← List.isPrefixOf_iff_prefix]
    cases hl : rfindList pat l with
    | some i =>
      have hin : pat <:+: l := by
        by_contra hnot
        rw [ih.2 hnot] at hl
        cases hl
      simp [hin]
    | none =>
      have hnot := ih.1 hl
      by_cases h : pat.isPrefixOf (x :: l) = true
      · simp [h]
      · simp [h, hnot]

/-- An occurrence is found. -/
theorem prefix_of_rfindList {i : ℕ} (h : rfindList pat l = some i) : pat <+: l.drop i := by
  induction l generalizing i with
  | nil =>
    rw [rfindList] at h
    split_ifs at h with hpat
    simp [hpat]
  | cons x l ih =>
    rw [rfindList] at h
    split at h
    · rename_i j hj
      obtain rfl := Option.some.inj h
      exact ih hj
    · split_ifs at h with hpre
      obtain rfl := Option.some.inj h
      exact List.isPrefixOf_iff_prefix.1 hpre

/-- The last occurrence in the second part is the last one of all. -/
theorem rfindList_append_of_some {i : ℕ} (h : rfindList pat s = some i) (r : List Char) :
    rfindList pat (r ++ s) = some (r.length + i) := by
  induction r with
  | nil => simpa using h
  | cons x r ih =>
    rw [List.cons_append, rfindList, ih, List.length_cons]
    simp only [Option.some.injEq]
    omega

/-- What begins with the text holds its last occurrence at its beginning, or further on. -/
theorem rfindList_of_prefix (h : pat <+: c :: s) (r : List Char) :
    (¬ pat <:+: s ∧ rfindList pat (r ++ c :: s) = some r.length) ∨
      ∃ i, rfindList pat s = some i ∧ rfindList pat (r ++ c :: s) = some (r.length + (i + 1)) := by
  cases hs : rfindList pat s with
  | none =>
    have hzero : rfindList pat (c :: s) = some 0 := by
      rw [rfindList, hs]
      exact if_pos (List.isPrefixOf_iff_prefix.2 h)
    exact Or.inl ⟨rfindList_eq_none_iff.1 hs, rfindList_append_of_some hzero r⟩
  | some i =>
    have hsucc : rfindList pat (c :: s) = some (i + 1) := by rw [rfindList, hs]
    exact Or.inr ⟨i, rfl, rfindList_append_of_some hsucc r⟩

/-! ### A word between two marks -/

theorem eq_nil_of_concat_eq {word a b : List Char} (hword : c ∉ word)
    (h : word ++ [c] = a ++ c :: b) : b = [] := by
  rcases List.eq_nil_or_concat b with rfl | ⟨b, d, rfl⟩
  · rfl
  · rw [List.concat_eq_append, ← List.cons_append, ← List.append_assoc] at h
    rw [(List.append_inj' h rfl).1] at hword
    simp at hword

/-- A word between two marks is in front of a mark or behind it. -/
theorem infix_append_cons {word t : List Char} (hword : c ∉ word) :
    c :: (word ++ [c]) <:+: s ++ c :: t ↔
      c :: (word ++ [c]) <:+: s ++ [c] ∨ c :: (word ++ [c]) <:+: c :: t := by
  constructor
  · intro hin
    rcases List.infix_append_iff_ne_nil.1 hin with hs | ht | ⟨l₁, l₂, hne, hne', heq, hsuf, hpre⟩
    · exact Or.inl (hs.trans (List.prefix_append _ _).isInfix)
    · exact Or.inr ht
    cases l₁ with
    | nil => exact absurd rfl hne
    | cons d l₁ =>
      cases l₂ with
      | nil => exact absurd rfl hne'
      | cons d' l₂ =>
        -- the mark behind the word is the one between the two parts
        obtain rfl := (List.cons_prefix_cons.1 hpre).1
        obtain rfl := eq_nil_of_concat_eq hword (List.cons.inj heq).2
        obtain ⟨r, rfl⟩ := hsuf
        rw [heq, List.append_assoc]
        exact Or.inl (List.suffix_append _ _).isInfix
  · rintro (hs | ht)
    · have happend : s ++ c :: t = s ++ [c] ++ t := List.append_cons s c t
      rw [happend]
      exact hs.trans (List.prefix_append _ _).isInfix
    · exact ht.trans (List.suffix_append _ _).isInfix

end Strings
