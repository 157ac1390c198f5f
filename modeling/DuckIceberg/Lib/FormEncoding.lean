import Mathlib.Data.List.Infix
import Mathlib.Data.List.TakeWhile

/-!
# Form bodies

`application/x-www-form-urlencoded` over lists of bytes, as it is decoded: a body is cut at every
`&`, empty pieces are left out, a piece is cut at its first `=`, and in both parts `+` stands for a
space and `%` with two hexadecimal digits for a byte.

`join` writes the fields without escaping anything, and `posted` is what is left of a body that is
handed over as a C string.  Decoding gives the fields back exactly where every value is `Plain`
(`fields_posted_join`).
-/

namespace FormEncoding

/-- The bytes of a text. -/
def bytes (s : String) : List UInt8 := s.toUTF8.data.toList

@[simp] theorem bytes_append (s t : String) : bytes (s ++ t) = bytes s ++ bytes t := by
  simp [bytes]

/-! ### Decoding -/

/-- The value of a hexadecimal digit. -/
def hexValue (c : UInt8) : Option UInt8 :=
  if 48 ≤ c ∧ c ≤ 57 then some (c - 48)
  else if 65 ≤ c ∧ c ≤ 70 then some (c - 55)
  else if 97 ≤ c ∧ c ≤ 102 then some (c - 87)
  else none

/-- A name or a value with `+` and the escapes decoded. -/
def decode : List UInt8 → List UInt8
  | 37 :: a :: b :: rest =>
    match hexValue a, hexValue b with
    | some x, some y => (16 * x + y) :: decode rest
    | _, _ => 37 :: decode (a :: b :: rest)
  | c :: rest => (if c = 43 then 32 else c) :: decode rest
  | [] => []

/-- A piece, cut at its first `=`. -/
def field (piece : List UInt8) : List UInt8 × List UInt8 :=
  (decode (piece.takeWhile (· ≠ 61)), decode ((piece.dropWhile (· ≠ 61)).drop 1))

/-- The fields of a body. -/
def fields (body : List UInt8) : List (List UInt8 × List UInt8) :=
  ((body.splitOn 38).filter (· ≠ [])).map field

/-- Nothing in it is decoded. -/
def Literal (v : List UInt8) : Prop :=
  43 ∉ v ∧ ∀ a b, (hexValue a).isSome → (hexValue b).isSome → ¬ [37, a, b] <:+: v

theorem length_decode_le (v : List UInt8) : (decode v).length ≤ v.length := by
  fun_induction decode v with
  | case1 a b rest x y hb ha ih =>
    simp only [List.length_cons]
    omega
  | case2 a b rest h ih =>
    simp only [List.length_cons] at ih ⊢
    omega
  | case3 c rest h ih =>
    simp only [List.length_cons]
    omega
  | case4 => exact le_rfl

theorem literal_cons {c : UInt8} {v : List UInt8} (hc : c ≠ 43)
    (hescape : ∀ a b rest, c = 37 → v = a :: b :: rest →
      ¬ ((hexValue a).isSome ∧ (hexValue b).isSome)) : Literal (c :: v) ↔ Literal v := by
  have hplus : 43 ∉ c :: v ↔ 43 ∉ v := by simp [Ne.symm hc]
  unfold Literal
  rw [hplus]
  refine and_congr_right fun _ => ⟨fun h a b ha hb hin => ?_, fun h a b ha hb hin => ?_⟩
  · exact h a b ha hb (List.infix_cons hin)
  · rcases List.infix_cons_iff.1 hin with hprefix | hin
    · obtain ⟨rest, hrest⟩ := hprefix
      simp only [List.cons_append, List.nil_append, List.cons.injEq] at hrest
      exact hescape a b rest hrest.1.symm hrest.2.symm ⟨ha, hb⟩
    · exact h a b ha hb hin

/-- What nothing is decoded in stays as it is, and nothing else does. -/
theorem decode_eq_self_iff (v : List UInt8) : decode v = v ↔ Literal v := by
  fun_induction decode v with
  | case1 a b rest x y hb ha ih =>
    refine iff_of_false (fun h => ?_) (fun h => ?_)
    · have hlength := congrArg List.length h
      have hle := length_decode_le rest
      simp only [List.length_cons] at hlength
      omega
    · exact h.2 a b (by simp [ha]) (by simp [hb]) ⟨[], rest, rfl⟩
  | case2 a b rest h ih =>
    have hcons : Literal (37 :: a :: b :: rest) ↔ Literal (a :: b :: rest) := by
      refine literal_cons (by decide) fun a' b' rest' _ heq hhex => ?_
      cases heq
      obtain ⟨x, hx⟩ := Option.isSome_iff_exists.1 hhex.1
      obtain ⟨y, hy⟩ := Option.isSome_iff_exists.1 hhex.2
      exact h x y hx hy
    rw [hcons, ← ih]
    simp
  | case3 c rest h ih =>
    by_cases hc : c = 43
    · subst hc
      refine iff_of_false (fun h => ?_) (fun h => h.1 List.mem_cons_self)
      simp at h
    · have hcons : Literal (c :: rest) ↔ Literal rest := by
        refine literal_cons hc fun a b rest' hpercent hrest _ => ?_
        exact absurd hrest (h a b rest' hpercent)
      rw [hcons, ← ih, if_neg hc]
      simp
  | case4 => simp [Literal]

/-! ### Fields -/

@[simp] theorem fields_nil : fields [] = [] := rfl

@[simp] theorem fields_delimiter (body : List UInt8) : fields (38 :: body) = fields body := by
  have hsplit : (38 :: body).splitOn 38 = [] :: body.splitOn 38 :=
    List.splitOn_append_cons_self [] body
  simp [fields, hsplit]

/-- A name that stands for itself in a body. -/
structure Name (k : List UInt8) : Prop where
  literal : Literal k
  separator : 61 ∉ k
  delimiter : 38 ∉ k
  terminator : 0 ∉ k

variable {k : List UInt8}

theorem field_name (hk : Name k) (v : List UInt8) : field (k ++ 61 :: v) = (k, decode v) := by
  have hmem : ∀ c ∈ k, decide (c ≠ 61) = true := fun c hc =>
    decide_eq_true fun h => hk.separator (h ▸ hc)
  have htake : (k ++ 61 :: v).takeWhile (· ≠ 61) = k := by
    rw [List.takeWhile_append_of_pos hmem]
    simp
  have hdrop : (k ++ 61 :: v).dropWhile (· ≠ 61) = 61 :: v := by
    rw [List.dropWhile_append_of_pos hmem]
    simp
  rw [field, htake, hdrop, (decode_eq_self_iff k).2 hk.literal]
  rfl

/-- The first field takes what stands before the first `&`. -/
theorem fields_name (hk : Name k) (w : List UInt8) : fields (k ++ 61 :: w) =
    (k, decode (w.takeWhile (· ≠ 38))) :: fields (w.dropWhile (· ≠ 38)) := by
  have hfirst : 38 ∉ k ++ 61 :: w.takeWhile (· ≠ 38) := by
    simp only [List.mem_append, List.mem_cons, not_or]
    refine ⟨hk.delimiter, by decide, fun h => ?_⟩
    simpa using List.mem_takeWhile_imp h
  have hnonempty : k ++ 61 :: w.takeWhile (· ≠ 38) ≠ [] := by simp
  conv_lhs => rw [← List.takeWhile_append_dropWhile (p := fun c : UInt8 => decide (c ≠ 38)) (l := w)]
  cases hrest : w.dropWhile (· ≠ 38) with
  | nil =>
    rw [List.append_nil, fields, List.splitOn_eq_singleton hfirst]
    simp [field_name hk]
  | cons c rest =>
    have hc : c = 38 := by
      have hhead := List.head?_dropWhile_not (fun c : UInt8 => decide (c ≠ 38)) w
      rw [hrest] at hhead
      simpa using hhead
    subst hc
    rw [fields_delimiter, fields, ← List.cons_append, ← List.append_assoc,
      List.splitOn_append_cons_self_of_not_mem hfirst, List.filter_cons_of_pos (by simp),
      List.map_cons, field_name hk]
    rfl

/-! ### Fields that are written without an escape -/

/-- The fields, each as it is. -/
def join : List (List UInt8 × List UInt8) → List UInt8
  | [] => []
  | [(k, v)] => k ++ 61 :: v
  | (k, v) :: kvs => k ++ 61 :: v ++ 38 :: join kvs

/-- What is read of a body that is given as a C string. -/
def posted (body : List UInt8) : List UInt8 := body.takeWhile (· ≠ 0)

/-- A value that stands for itself in a body. -/
structure Plain (v : List UInt8) : Prop where
  literal : Literal v
  delimiter : 38 ∉ v
  terminator : 0 ∉ v

theorem posted_name (hk : Name k) (w : List UInt8) :
    posted (k ++ 61 :: w) = k ++ 61 :: posted w := by
  have hmem : ∀ c ∈ k, decide (c ≠ 0) = true := fun c hc =>
    decide_eq_true fun h => hk.terminator (h ▸ hc)
  rw [posted, List.takeWhile_append_of_pos hmem, List.takeWhile_cons_of_pos (by decide)]
  rfl

theorem posted_value {v : List UInt8} (hv : 0 ∉ v) (w : List UInt8) :
    posted (v ++ w) = v ++ posted w :=
  List.takeWhile_append_of_pos fun _ hc => decide_eq_true fun h => hv (h ▸ hc)

theorem takeWhile_value {v : List UInt8} (hv : 38 ∉ v) (w : List UInt8) :
    (v ++ w).takeWhile (· ≠ 38) = v ++ w.takeWhile (· ≠ 38) :=
  List.takeWhile_append_of_pos fun _ hc => decide_eq_true fun h => hv (h ▸ hc)

theorem dropWhile_value {v : List UInt8} (hv : 38 ∉ v) (w : List UInt8) :
    (v ++ w).dropWhile (· ≠ 38) = w.dropWhile (· ≠ 38) :=
  List.dropWhile_append_of_pos fun _ hc => decide_eq_true fun h => hv (h ▸ hc)

/-- What is read of a value that a delimiter or the end of the string cuts is shorter. -/
theorem length_cut_lt {v w : List UInt8} (h : 38 ∈ v ∨ 0 ∈ v) :
    ((posted (v ++ w)).takeWhile (· ≠ 38)).length < v.length := by
  induction v with
  | nil => simp at h
  | cons c v ih =>
    by_cases hnul : c = 0
    · simp [posted, hnul]
    · by_cases hdelim : c = 38
      · simp [posted, hdelim]
      · have hrest : 38 ∈ v ∨ 0 ∈ v := by
          simpa [Ne.symm hnul, Ne.symm hdelim] using h
        have hcut := ih hrest
        rw [posted] at hcut
        rw [posted, List.cons_append, List.takeWhile_cons_of_pos (by simp [hnul]),
          List.takeWhile_cons_of_pos (by simp [hdelim]), List.length_cons, List.length_cons]
        omega

/-- The first field has its value exactly when that is plain. -/
theorem decode_cut_iff {v w : List UInt8} (hw : ∀ c ∈ w.head?, c = 38) :
    decode ((posted (v ++ w)).takeWhile (· ≠ 38)) = v ↔ Plain v := by
  by_cases hcut : 38 ∈ v ∨ 0 ∈ v
  · refine iff_of_false (fun h => ?_) fun h => hcut.elim h.delimiter h.terminator
    have hlength := congrArg List.length h
    have hle := length_decode_le ((posted (v ++ w)).takeWhile (· ≠ 38))
    have hlt := length_cut_lt (w := w) hcut
    omega
  · simp only [not_or] at hcut
    have hrest : (posted w).takeWhile (· ≠ 38) = [] := by
      cases w with
      | nil => rfl
      | cons c w =>
        obtain rfl : c = 38 := hw c rfl
        simp [posted]
    rw [posted_value hcut.2, takeWhile_value hcut.1, hrest, List.append_nil, decode_eq_self_iff]
    exact ⟨fun h => ⟨h, hcut.1, hcut.2⟩, Plain.literal⟩

/-- A field is decoded as it is written when its value is plain, and then so is what follows. -/
theorem fields_posted_cons (hk : Name k) (v w : List UInt8)
    (kvs : List (List UInt8 × List UInt8)) :
    fields (posted (k ++ 61 :: v ++ 38 :: w)) = (k, v) :: kvs ↔
      Plain v ∧ fields (posted w) = kvs := by
  have hhead : ∀ c ∈ (38 :: w).head?, c = 38 := by simp
  rw [List.append_assoc, List.cons_append, posted_name hk, fields_name hk, List.cons.injEq,
    Prod.mk.injEq, and_iff_right rfl, decode_cut_iff hhead]
  refine and_congr_right fun hv => ?_
  rw [posted_value hv.terminator, dropWhile_value hv.delimiter]
  simp [posted]

theorem fields_posted_last (hk : Name k) (v : List UInt8) :
    fields (posted (k ++ 61 :: v)) = [(k, v)] ↔ Plain v := by
  have hcut := decode_cut_iff (v := v) (w := []) (by simp)
  rw [List.append_nil] at hcut
  rw [posted_name hk, fields_name hk, List.cons.injEq, Prod.mk.injEq, and_iff_right rfl, hcut]
  refine and_iff_left_of_imp fun hv => ?_
  have hposted := posted_value hv.terminator []
  have hrest := dropWhile_value hv.delimiter []
  rw [List.append_nil] at hposted hrest
  rw [hposted, posted, List.takeWhile_nil, List.append_nil, hrest]
  rfl

/-- **Decoding a body gives back its fields** exactly when every value is plain. -/
theorem fields_posted_join {kvs : List (List UInt8 × List UInt8)} (hnames : ∀ kv ∈ kvs, Name kv.1) :
    fields (posted (join kvs)) = kvs ↔ ∀ kv ∈ kvs, Plain kv.2 := by
  induction kvs with
  | nil => simp [join, posted]
  | cons kv kvs ih =>
    obtain ⟨k, v⟩ := kv
    have hk : Name k := hnames (k, v) List.mem_cons_self
    have hrest := ih fun kv hkv => hnames kv (List.mem_cons_of_mem _ hkv)
    cases kvs with
    | nil => simp [join, fields_posted_last hk]
    | cons kv' kvs =>
      rw [join, fields_posted_cons hk, hrest, List.forall_mem_cons (l := kv' :: kvs)]
      exact List.cons_ne_nil _ _

end FormEncoding
