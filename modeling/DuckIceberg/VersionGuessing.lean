import DuckIceberg.Metadata
import Mathlib.Data.String.Basic

/-!
# Guessing the version of a table

`GuessTableVersion` globs the metadata directory for each format and takes the greatest path it finds
(`PickTableVersion` sorts strings).  In a directory of files `v<N>.metadata.json`, or of files
`<N>.metadata.json`, that is the file with the numeral that is the greatest in lexicographic order
(`guessTableVersion_greatest`), as the comment on `UNKNOWN_TABLE_VERSION` says.
-/

namespace DuckIceberg

open Strings

namespace IcebergSnapshot

/-! ### Numerals in lexicographic order -/

/-- What follows the number in the name of a metadata file. -/
def metadataSuffix : String := ".metadata.json"

/-- The two ways in which metadata files are named. -/
inductive VersionStyle
  | letter
  | plain
  deriving DecidableEq

/-- What stands before the number. -/
def VersionStyle.before : VersionStyle → String
  | letter => "v"
  | plain => ""

/-- The name of a metadata file. -/
def versionFile (style : VersionStyle) (n : ℕ) : String :=
  style.before ++ toString n ++ metadataSuffix

theorem append_lt_append_iff (l : List Char) {a b : List Char} : l ++ a < l ++ b ↔ a < b := by
  induction l with
  | nil => rfl
  | cons c l ih =>
    rw [List.cons_append, List.cons_append, List.cons_lt_cons_self]
    exact ih

/-- What follows does not count when it begins with a character before all the others. -/
theorem append_cons_lt_iff {c : Char} {a b rest : List Char} (ha : ∀ x ∈ a, c < x)
    (hb : ∀ x ∈ b, c < x) : a ++ c :: rest < b ++ c :: rest ↔ a < b := by
  induction a generalizing b with
  | nil =>
    cases b with
    | nil => simp
    | cons y b =>
      have hy : c < y := hb y List.mem_cons_self
      simp [List.cons_lt_cons_iff, hy]
  | cons x a ih =>
    have hx : c < x := ha x List.mem_cons_self
    cases b with
    | nil =>
      refine iff_of_false (fun h => ?_) (List.not_lt_nil _)
      simp only [List.cons_append, List.nil_append, List.cons_lt_cons_iff] at h
      rcases h with h | ⟨h, -⟩
      · exact absurd h (lt_asymm hx)
      · exact absurd h hx.ne'
    | cons y b =>
      simp only [List.cons_append, List.cons_lt_cons_iff]
      rw [ih (fun z hz => ha z (List.mem_cons_of_mem _ hz))
        fun z hz => hb z (List.mem_cons_of_mem _ hz)]

/-- What follows does not count behind texts of one length that differ. -/
theorem append_lt_append_of_lt {a b x y : List Char} (hlength : a.length = b.length) (h : a < b) :
    a ++ x < b ++ y := by
  induction a generalizing b with
  | nil =>
    rw [List.eq_nil_of_length_eq_zero hlength.symm] at h
    exact absurd h (lt_irrefl _)
  | cons c a ih =>
    cases b with
    | nil => exact absurd h (List.not_lt_nil _)
    | cons d b =>
      rw [List.cons_append, List.cons_append, List.cons_lt_cons_iff]
      refine (List.cons_lt_cons_iff.1 h).imp_right fun hrest => ?_
      exact ⟨hrest.1, ih (Nat.succ_injective hlength) hrest.2⟩

theorem toList_toString (n : ℕ) : (toString n).toList = Nat.toDigits 10 n := by
  rw [Nat.toString_eq_repr, Nat.toList_repr]

theorem dot_lt_digit {n : ℕ} {c : Char} (h : c ∈ Nat.toDigits 10 n) : '.' < c := by
  have hdigit := isDigit_toDigits h
  simp only [Char.isDigit, Bool.and_eq_true, decide_eq_true_eq, ge_iff_le] at hdigit
  exact lt_of_lt_of_le (by decide) hdigit.1

/-- The names of metadata files are ordered as their numerals are. -/
theorem versionFile_lt_iff (root : String) (style : VersionStyle) (m n : ℕ) :
    root ++ versionFile style m < root ++ versionFile style n ↔ toString m < toString n := by
  simp only [String.lt_iff_toList_lt, versionFile, String.toList_append, List.append_assoc,
    append_lt_append_iff, toList_toString]
  exact append_cons_lt_iff (fun c => dot_lt_digit) (fun c => dot_lt_digit)

theorem digitChar_lt_digitChar {d e : ℕ} (h : d < e) (he : e < 10) :
    Nat.digitChar d < Nat.digitChar e := by
  interval_cases e <;> interval_cases d <;> decide

/-- Of numerals of one length, that of the smaller number is the smaller one. -/
theorem toString_lt_of_lt {m n : ℕ} (h : m < n)
    (hlength : (toString m).toList.length = (toString n).toList.length) : toString m < toString n := by
  simp only [String.lt_iff_toList_lt, toList_toString] at hlength ⊢
  induction m using Nat.strong_induction_on generalizing n with
  | _ m ih =>
    by_cases hn : n < 10
    · rw [Nat.toDigits_of_lt_base (by omega : m < 10), Nat.toDigits_of_lt_base hn]
      exact List.Lex.rel (digitChar_lt_digitChar h hn)
    · have hn' := Nat.toDigits_of_base_le (b := 10) (by omega) (by omega : 10 ≤ n)
      by_cases hm : m < 10
      · have hpos := Nat.length_toDigits_pos (b := 10) (n := n / 10)
        rw [hn', Nat.toDigits_of_lt_base hm, List.length_append] at hlength
        simp only [List.length_singleton] at hlength
        omega
      · have hm' := Nat.toDigits_of_base_le (b := 10) (by omega) (by omega : 10 ≤ m)
        rw [hm', hn'] at hlength ⊢
        by_cases hsame : m / 10 = n / 10
        · rw [hsame, append_lt_append_iff]
          exact List.Lex.rel (digitChar_lt_digitChar (by omega) (by omega))
        · have hlength' : (Nat.toDigits 10 (m / 10)).length = (Nat.toDigits 10 (n / 10)).length := by
            simpa using hlength
          exact append_lt_append_of_lt hlength' (ih (m / 10) (by omega) (by omega) hlength')

/-! ### The greatest -/

theorem empty_lt {s : String} (h : s ≠ "") : "" < s := by
  rw [String.lt_iff_toList_lt]
  cases hs : s.toList with
  | nil => exact absurd (String.toList_inj.1 hs) h
  | cons c l => exact List.nil_lt_cons c l

theorem pickTableVersion_concat (found : List String) (path : String) :
    pickTableVersion (found ++ [path]) =
      if pickTableVersion found < path then path else pickTableVersion found := by
  rw [pickTableVersion, List.foldl_concat]
  rfl

/-- `PickTableVersion` takes the greatest string. -/
theorem pickTableVersion_spec {found : List String} (h : found ≠ []) :
    pickTableVersion found ∈ found ∧ ∀ path ∈ found, path ≤ pickTableVersion found := by
  induction found using List.reverseRecOn with
  | nil => exact absurd rfl h
  | append_singleton found path ih =>
    rw [pickTableVersion_concat]
    have hgreatest : ∀ p ∈ found, p ≤ pickTableVersion found := by
      cases found with
      | nil => exact nofun
      | cons p found => exact (ih (List.cons_ne_nil p found)).2
    by_cases hlt : pickTableVersion found < path
    · rw [if_pos hlt]
      refine ⟨by simp, fun p hp => ?_⟩
      rcases List.mem_append.1 hp with hp | hp
      · exact (hgreatest p hp).trans hlt.le
      · rw [List.mem_singleton.1 hp]
    · rw [if_neg hlt]
      have hle : path ≤ pickTableVersion found := not_lt.1 hlt
      constructor
      · cases found with
        | nil =>
          have hempty : path = "" := by
            by_contra hne
            exact hlt (empty_lt hne)
          simp [hempty, pickTableVersion]
        | cons p found => exact List.mem_append_left _ (ih (List.cons_ne_nil p found)).1
      · intro p hp
        rcases List.mem_append.1 hp with hp | hp
        · exact hgreatest p hp
        · rwa [List.mem_singleton.1 hp]

/-! ### A directory of versions -/

/-- A metadata directory, where these are the names of its files: the metadata files are those of
the versions, with names of one style.  `Format` fills in the two texts, and `Glob` finds the files
that match. -/
structure VersionDirectory (ctx : ClientContext) (metaPath root : String) (style : VersionStyle)
    (names : List String) (versions : Finset ℕ) : Prop where
  nonempty : versions.Nonempty
  files : ∀ name, name ∈ names ∧ endsWith name metadataSuffix = true ↔
    ∃ n ∈ versions, name = versionFile style n
  joinPath : ∀ name, ctx.joinPath metaPath name = root ++ name
  format : ∀ style : VersionStyle, ctx.format (style.before ++ "%s%s" ++ metadataSuffix) "*" "" =
    .ok (style.before ++ "*" ++ metadataSuffix)
  glob : ∀ style : VersionStyle, ∃ found,
    ctx.glob (root ++ (style.before ++ "*" ++ metadataSuffix)) = .ok found ∧
      ∀ path, path ∈ found ↔ ∃ name ∈ names,
        (∃ between, name = style.before ++ between ++ metadataSuffix) ∧ path = root ++ name

/-- A version with none behind it. -/
def IsLatest (versions : Finset ℕ) (n : ℕ) : Prop := n ∈ versions ∧ ∀ m ∈ versions, m ≤ n

/-- A version whose numeral is the greatest in lexicographic order. -/
def IsGreatest (versions : Finset ℕ) (n : ℕ) : Prop :=
  n ∈ versions ∧ ∀ m ∈ versions, toString m ≤ toString n

/-- This version is guessed. -/
def Guesses (ctx : ClientContext) (metaPath : String) (style : VersionStyle)
    (options : IcebergOptions) (n : ℕ) : Prop :=
  guessTableVersion ctx metaPath options = .ok (ctx.joinPath metaPath (versionFile style n))

namespace VersionDirectory

variable {ctx : ClientContext} {metaPath root : String} {style : VersionStyle}
  {names : List String} {versions : Finset ℕ} {options : IcebergOptions}
  (h : VersionDirectory ctx metaPath root style names versions)

include h

/-- What is found by the format that the files have. -/
theorem glob_style : ∃ found,
    ctx.glob (ctx.joinPath metaPath (style.before ++ "*" ++ metadataSuffix)) = .ok found ∧
      ∀ path, path ∈ found ↔ ∃ n ∈ versions, path = root ++ versionFile style n := by
  obtain ⟨found, hglob, hfound⟩ := h.glob style
  rw [← h.joinPath] at hglob
  refine ⟨found, hglob, fun path => (hfound path).trans ⟨?_, ?_⟩⟩
  · rintro ⟨name, hname, ⟨between, hbetween⟩, rfl⟩
    have hsuffix : endsWith name metadataSuffix = true := by
      rw [hbetween, endsWith_iff, String.toList_append]
      exact List.suffix_append _ _
    obtain ⟨n, hn, rfl⟩ := (h.files name).1 ⟨hname, hsuffix⟩
    exact ⟨n, hn, rfl⟩
  · rintro ⟨n, hn, rfl⟩
    exact ⟨_, ((h.files _).2 ⟨n, hn, rfl⟩).1, ⟨toString n, rfl⟩, rfl⟩

/-- Files without a `v` are not found by the format that has one. -/
theorem glob_letter (hstyle : style = .plain) :
    ctx.glob (ctx.joinPath metaPath (VersionStyle.letter.before ++ "*" ++ metadataSuffix)) =
      .ok [] := by
  obtain ⟨found, hglob, hfound⟩ := h.glob .letter
  rw [← h.joinPath] at hglob
  have hempty : found = [] := by
    refine List.eq_nil_iff_forall_not_mem.2 fun path hpath => ?_
    obtain ⟨name, hname, ⟨between, hbetween⟩, -⟩ := (hfound path).1 hpath
    have hsuffix : endsWith name metadataSuffix = true := by
      rw [hbetween, endsWith_iff, String.toList_append]
      exact List.suffix_append _ _
    obtain ⟨n, hn, hfile⟩ := (h.files name).1 ⟨hname, hsuffix⟩
    have hhead : 'v' ∈ ((toString n).toList ++ metadataSuffix.toList).head? := by
      have hlists := congrArg String.toList (hfile.symm.trans hbetween)
      simp only [versionFile, hstyle, VersionStyle.before, String.toList_append] at hlists
      rw [String.toList_empty, List.nil_append] at hlists
      rw [hlists]
      rfl
    rw [toList_toString] at hhead
    cases hdigits : Nat.toDigits 10 n with
    | nil => exact absurd hdigits Nat.toDigits_ne_nil
    | cons c cs =>
      rw [hdigits] at hhead
      have hc : c = 'v' := Option.some.inj hhead
      have hmem : 'v' ∈ Nat.toDigits 10 n := by
        rw [hdigits, hc]
        exact List.mem_cons_self
      exact absurd (isDigit_toDigits hmem) (by decide)
  rw [hglob, hempty]

end VersionDirectory

section Guess

variable {ctx : ClientContext} {metaPath tryFormat globPattern : String} {options : IcebergOptions}
  {found : List String}

theorem guessVersion_cons (formats : List String)
    (hformat : ctx.format tryFormat "*" (compressionSuffix options) = .ok globPattern)
    (hglob : ctx.glob (ctx.joinPath metaPath globPattern) = .ok found) :
    guessVersion ctx metaPath options (tryFormat :: formats) =
      if pickTableVersion found ≠ "" then .ok (pickTableVersion found)
      else guessVersion ctx metaPath options formats := by
  rw [guessVersion, hformat]
  show (do
    let found ← ctx.glob (ctx.joinPath metaPath globPattern)
    if pickTableVersion found ≠ "" then pure (pickTableVersion found)
    else guessVersion ctx metaPath options formats) = _
  rw [hglob]
  rfl

end Guess

namespace VersionDirectory

variable {ctx : ClientContext} {metaPath root : String} {style : VersionStyle}
  {names : List String} {versions : Finset ℕ} {options : IcebergOptions}
  (h : VersionDirectory ctx metaPath root style names versions)

include h

/-- The format that the files have gives the greatest of their paths. -/
theorem guessVersion_style (hcodec : options.metadataCompressionCodec ≠ "gzip")
    (formats : List String) : ∃ n, IsGreatest versions n ∧
      guessVersion ctx metaPath options ((style.before ++ "%s%s" ++ metadataSuffix) :: formats) =
        .ok (ctx.joinPath metaPath (versionFile style n)) := by
  have hsuffix : compressionSuffix options = "" := if_neg hcodec
  obtain ⟨found, hglob, hfound⟩ := h.glob_style
  obtain ⟨m, hm⟩ := h.nonempty
  have hne : found ≠ [] := List.ne_nil_of_mem ((hfound _).2 ⟨m, hm, rfl⟩)
  obtain ⟨hpick, hgreatest⟩ := pickTableVersion_spec hne
  obtain ⟨n, hn, hpath⟩ := (hfound _).1 hpick
  have hnonempty : pickTableVersion found ≠ "" := by
    rw [hpath, Ne, ← String.toList_inj]
    simp [versionFile, metadataSuffix]
  refine ⟨n, ⟨hn, fun k hk => ?_⟩, ?_⟩
  · have hle := hgreatest _ ((hfound _).2 ⟨k, hk, rfl⟩)
    rw [hpath, ← not_lt, versionFile_lt_iff] at hle
    exact not_lt.1 hle
  · rw [guessVersion_cons formats (hsuffix ▸ h.format style) hglob, if_pos hnonempty, hpath,
      h.joinPath]

/-- The version with the greatest numeral is guessed. -/
theorem guesses_greatest (hformat : options.versionNameFormat = defaultTableVersionFormat)
    (hcodec : options.metadataCompressionCodec ≠ "gzip") :
    ∃ n, IsGreatest versions n ∧ Guesses ctx metaPath style options n := by
  have hsplit : split defaultTableVersionFormat ',' =
      [VersionStyle.letter.before ++ "%s%s" ++ metadataSuffix,
        VersionStyle.plain.before ++ "%s%s" ++ metadataSuffix] := by decide +kernel
  unfold Guesses
  rw [guessTableVersion, hformat, hsplit]
  cases hstyle : style with
  | letter =>
    subst hstyle
    exact h.guessVersion_style hcodec _
  | plain =>
    have hsuffix : compressionSuffix options = "" := if_neg hcodec
    rw [guessVersion_cons _ (hsuffix ▸ h.format .letter) (h.glob_letter hstyle)]
    subst hstyle
    exact h.guessVersion_style hcodec _

end VersionDirectory

theorem IsGreatest.toString_eq {versions : Finset ℕ} {m n : ℕ} (hm : IsGreatest versions m)
    (hn : IsGreatest versions n) : toString m = toString n :=
  le_antisymm (hn.2 m hm.1) (hm.2 n hn.1)

theorem toString_eq_of_path_eq {root : String} {style : VersionStyle} {m n : ℕ}
    (h : root ++ versionFile style m = root ++ versionFile style n) : toString m = toString n := by
  refine le_antisymm (not_lt.1 fun hlt => ?_) (not_lt.1 fun hlt => ?_)
  · rw [← versionFile_lt_iff root style, h] at hlt
    exact lt_irrefl _ hlt
  · rw [← versionFile_lt_iff root style, h] at hlt
    exact lt_irrefl _ hlt

/-- **The guessed version** is the one with the greatest numeral in lexicographic order.  It is the
latest exactly when the numeral of the latest is the greatest, as when they all have one length. -/
theorem guessTableVersion_greatest {ctx : ClientContext} {metaPath root : String}
    {style : VersionStyle} {names : List String} {versions : Finset ℕ} {options : IcebergOptions}
    (h : VersionDirectory ctx metaPath root style names versions)
    (hformat : options.versionNameFormat = defaultTableVersionFormat)
    (hcodec : options.metadataCompressionCodec ≠ "gzip") :
    (∃ n, IsGreatest versions n ∧ Guesses ctx metaPath style options n) ∧
      ((∃ n, IsLatest versions n ∧ Guesses ctx metaPath style options n) ↔
        ∃ n, IsLatest versions n ∧ IsGreatest versions n) ∧
      ((∀ m ∈ versions, ∀ n ∈ versions,
          (toString m).toList.length = (toString n).toList.length) →
        ∃ n, IsLatest versions n ∧ Guesses ctx metaPath style options n) := by
  obtain ⟨n, hn, hguess⟩ := h.guesses_greatest hformat hcodec
  have hiff : (∃ n, IsLatest versions n ∧ Guesses ctx metaPath style options n) ↔
      ∃ n, IsLatest versions n ∧ IsGreatest versions n := by
    constructor
    · rintro ⟨m, hm, hguess'⟩
      have hpath := Except.ok.inj (hguess'.symm.trans hguess)
      rw [h.joinPath, h.joinPath] at hpath
      refine ⟨m, hm, hm.1, fun k hk => ?_⟩
      rw [toString_eq_of_path_eq hpath]
      exact hn.2 k hk
    · rintro ⟨m, hm, hgreatest⟩
      refine ⟨m, hm, ?_⟩
      rw [Guesses, versionFile, hgreatest.toString_eq hn]
      exact hguess
  refine ⟨⟨n, hn, hguess⟩, hiff, fun hlength => hiff.2 ?_⟩
  obtain ⟨m, hm, hmax⟩ := versions.exists_max_image id h.nonempty
  refine ⟨m, ⟨hm, hmax⟩, hm, fun k hk => ?_⟩
  rcases (hmax k hk).lt_or_eq with hlt | heq
  · exact (toString_lt_of_lt hlt (hlength k hk m hm)).le
  · exact le_of_eq (congrArg toString heq)

/-- A session with a directory of the versions 9 and 10. -/
def nineAndTen : ClientContext where
  joinPath a b := a ++ "/" ++ b
  fileExists _ := .ok false
  readFile path := .error ⟨.io, path⟩
  glob pattern :=
    if pattern = "t/metadata/v*.metadata.json" ∨ pattern = "t/metadata/*.metadata.json" then
      .ok ["t/metadata/v10.metadata.json", "t/metadata/v9.metadata.json"]
    else .ok []
  uncompressGzip := .ok
  format tryFormat version suffix :=
    if startsWith tryFormat "v" then .ok ("v" ++ version ++ suffix ++ metadataSuffix)
    else .ok (version ++ suffix ++ metadataSuffix)
  yyjsonRead _ := none
  unsafeVersionGuessing := true
  fromEpochMs n := .ok n
  getEpochMs n := n
  timestampToString _ := ""
  readAvro path := .error ⟨.io, path⟩
  parquetScan path := .error ⟨.io, path⟩

theorem nineAndTen_directory : VersionDirectory nineAndTen "t/metadata" "t/metadata/" .letter
    ["v9.metadata.json", "v10.metadata.json"] {9, 10} where
  nonempty := ⟨9, by decide⟩
  files name := by
    have hnine : versionFile .letter 9 = "v9.metadata.json" := by decide +kernel
    have hten : versionFile .letter 10 = "v10.metadata.json" := by decide +kernel
    constructor
    · rintro ⟨hname, -⟩
      simp only [List.mem_cons, List.not_mem_nil, or_false] at hname
      rcases hname with rfl | rfl
      · exact ⟨9, by decide, hnine.symm⟩
      · exact ⟨10, by decide, hten.symm⟩
    · rintro ⟨n, hn, rfl⟩
      simp only [Finset.mem_insert, Finset.mem_singleton] at hn
      rcases hn with rfl | rfl
      · rw [hnine]
        decide +kernel
      · rw [hten]
        decide +kernel
  joinPath name := rfl
  format style := by cases style <;> decide +kernel
  glob style := by
    refine ⟨["t/metadata/v10.metadata.json", "t/metadata/v9.metadata.json"], ?_, fun path => ?_⟩
    · cases style <;> decide +kernel
    · have hmatches : ∀ name ∈ ["v9.metadata.json", "v10.metadata.json"],
          ∃ between, name = style.before ++ between ++ metadataSuffix := by
        intro name hname
        simp only [List.mem_cons, List.not_mem_nil, or_false] at hname
        cases style with
        | letter =>
          rcases hname with rfl | rfl
          · exact ⟨"9", by decide +kernel⟩
          · exact ⟨"10", by decide +kernel⟩
        | plain =>
          rcases hname with rfl | rfl
          · exact ⟨"v9", by decide +kernel⟩
          · exact ⟨"v10", by decide +kernel⟩
      constructor
      · intro hpath
        simp only [List.mem_cons, List.not_mem_nil, or_false] at hpath
        rcases hpath with rfl | rfl
        · exact ⟨"v10.metadata.json", by simp, hmatches _ (by simp), by decide +kernel⟩
        · exact ⟨"v9.metadata.json", by simp, hmatches _ (by simp), by decide +kernel⟩
      · rintro ⟨name, hname, -, rfl⟩
        simp only [List.mem_cons, List.not_mem_nil, or_false] at hname
        rcases hname with rfl | rfl <;> decide +kernel

theorem guessTableVersion_nine :
    (∃ n, IsGreatest {9, 10} n ∧ Guesses nineAndTen "t/metadata" .letter {} n) ∧
      ((∃ n, IsLatest {9, 10} n ∧ Guesses nineAndTen "t/metadata" .letter {} n) ↔
        ∃ n, IsLatest {9, 10} n ∧ IsGreatest {9, 10} n) ∧
      ((∀ m ∈ ({9, 10} : Finset ℕ), ∀ n ∈ ({9, 10} : Finset ℕ),
          (toString m).toList.length = (toString n).toList.length) →
        ∃ n, IsLatest {9, 10} n ∧ Guesses nineAndTen "t/metadata" .letter {} n) :=
  guessTableVersion_greatest nineAndTen_directory rfl (by decide)

/-- Of the versions 9 and 10, the older one is guessed. -/
theorem not_guesses_ten : ¬ ∃ n, IsLatest {9, 10} n ∧
    Guesses nineAndTen "t/metadata" .letter {} n := by
  rintro ⟨n, hn, hguess⟩
  have hten : n = 10 := by
    have hmem := hn.1
    have hle := hn.2 10 (by decide)
    simp only [Finset.mem_insert, Finset.mem_singleton] at hmem
    omega
  subst hten
  have hnine : guessTableVersion nineAndTen "t/metadata" {} = .ok "t/metadata/v9.metadata.json" := by
    decide +kernel
  rw [Guesses, hnine, Except.ok.injEq] at hguess
  exact absurd hguess (by decide +kernel)

end IcebergSnapshot

end DuckIceberg
