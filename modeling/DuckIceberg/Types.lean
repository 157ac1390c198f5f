import Mathlib.Tactic

/-!
# Types shared by the whole extension

* `Error`: the exceptions the code throws, with their texts;
* `LogicalType`: the DuckDB column types that occur in manifests and in table schemas;
* the enumerations and records of `iceberg_types.hpp`.

An `idx_t` is a natural number; `idx` reduces a sum the way its 64 bits do.
-/

namespace DuckIceberg

/-- The number of rows a `DataChunk` has room for. -/
def standardVectorSize : ℕ := 2048

theorem standardVectorSize_pos : 0 < standardVectorSize := by decide

/-- The value a sum has in an `idx_t`. -/
def idx (n : ℕ) : ℕ := n % 2 ^ 64

theorem idx_of_lt {n : ℕ} (h : n < 2 ^ 64) : idx n = n := Nat.mod_eq_of_lt h

/-! ### Exceptions -/

/-- The exception classes the code throws.  `undefined` stands for what the C++ program leaves
undefined, `diverged` for a loop that does not end. -/
inductive ExceptionType
  | invalidInput
  | io
  | internal
  | notImplemented
  | binder
  | conversion
  | outOfRange
  | invalidArgument
  | external
  | undefined
  | diverged
  deriving DecidableEq, Repr

/-- An exception: its class and its text. -/
structure Error where
  type : ExceptionType
  message : String
  deriving DecidableEq, Repr

/-- A sequence of two computations returns what the second returns for the value of the first. -/
theorem bind_eq_ok {ε α β : Type} {x : Except ε α} {f : α → Except ε β} {b : β} :
    x >>= f = .ok b ↔ ∃ a, x = .ok a ∧ f a = .ok b := by
  cases x with
  | error e => exact ⟨nofun, fun ⟨_, h, _⟩ => nomatch h⟩
  | ok a => exact ⟨fun h => ⟨a, rfl, h⟩, fun ⟨_, h, h'⟩ => by cases h; exact h'⟩

/-- It fails when the first fails, or the second for the value of the first. -/
theorem bind_eq_error {ε α β : Type} {x : Except ε α} {f : α → Except ε β} {e : ε} :
    x >>= f = .error e ↔ x = .error e ∨ ∃ a, x = .ok a ∧ f a = .error e := by
  cases x with
  | error e' =>
    constructor
    · intro h
      exact Or.inl (congrArg Except.error (Except.error.inj h))
    · rintro (h | ⟨a, h, -⟩)
      · rw [Except.error.inj h]
        rfl
      · cases h
  | ok a =>
    constructor
    · intro h
      exact Or.inr ⟨a, rfl, h⟩
    · rintro (h | ⟨a', h, h'⟩)
      · cases h
      · cases h
        exact h'

/-- A computation on each element of a list returns when it does on each of them. -/
theorem mapM_eq_ok {ε α β : Type} {f : α → Except ε β} {l : List α} {bs : List β} :
    l.mapM f = .ok bs ↔ List.Forall₂ (fun a b => f a = .ok b) l bs := by
  induction l generalizing bs with
  | nil =>
    rw [List.mapM_nil, List.forall₂_nil_left_iff]
    exact ⟨fun h => (Except.ok.inj h).symm, fun h => by rw [h]; rfl⟩
  | cons a l ih =>
    rw [List.mapM_cons, bind_eq_ok, List.forall₂_cons_left_iff]
    constructor
    · rintro ⟨b, hb, h⟩
      obtain ⟨bs', hbs', h⟩ := bind_eq_ok.1 h
      cases h
      exact ⟨b, bs', hb, ih.1 hbs', rfl⟩
    · rintro ⟨b, bs', hb, hbs', rfl⟩
      refine ⟨b, hb, bind_eq_ok.2 ⟨bs', ih.2 hbs', rfl⟩⟩

theorem exists_of_mem_mapM {ε α β : Type} {f : α → Except ε β} {l : List α} {bs : List β}
    (h : l.mapM f = .ok bs) {b : β} (hb : b ∈ bs) : ∃ a ∈ l, f a = .ok b := by
  induction mapM_eq_ok.1 h with
  | nil => cases hb
  | cons ha hall ih =>
    rcases List.mem_cons.1 hb with rfl | hb
    · exact ⟨_, List.mem_cons_self, ha⟩
    · obtain ⟨a, hal, hab⟩ := ih (mapM_eq_ok.2 hall) hb
      exact ⟨a, List.mem_cons_of_mem _ hal, hab⟩

theorem mapM_ok_iff {ε α β : Type} {f : α → Except ε β} {l : List α} :
    (∃ bs, l.mapM f = .ok bs) ↔ ∀ a ∈ l, ∃ b, f a = .ok b := by
  induction l with
  | nil => exact iff_of_true ⟨[], rfl⟩ nofun
  | cons a l ih =>
    rw [List.forall_mem_cons, ← ih, List.mapM_cons]
    constructor
    · rintro ⟨bs, h⟩
      obtain ⟨b, hb, h⟩ := bind_eq_ok.1 h
      obtain ⟨bs', hbs', -⟩ := bind_eq_ok.1 h
      exact ⟨⟨b, hb⟩, bs', hbs'⟩
    · rintro ⟨⟨b, hb⟩, bs, hbs⟩
      exact ⟨b :: bs, bind_eq_ok.2 ⟨b, hb, bind_eq_ok.2 ⟨bs, hbs, rfl⟩⟩⟩

/-- It fails where it fails for the first time. -/
theorem mapM_eq_error {ε α β : Type} {f : α → Except ε β} {l : List α} {e : ε} :
    l.mapM f = .error e ↔ ∃ pre a post, l = pre ++ a :: post ∧ (∀ x ∈ pre, ∃ b, f x = .ok b) ∧
      f a = .error e := by
  induction l with
  | nil =>
    refine iff_of_false (fun h => nomatch h) ?_
    rintro ⟨pre, a, post, h, -⟩
    simp at h
  | cons a l ih =>
    rw [List.mapM_cons, bind_eq_error]
    constructor
    · rintro (ha | ⟨b, hb, h⟩)
      · exact ⟨[], a, l, rfl, nofun, ha⟩
      · rcases bind_eq_error.1 h with h | ⟨bs, -, h⟩
        · obtain ⟨pre, x, post, rfl, hpre, hx⟩ := ih.1 h
          exact ⟨a :: pre, x, post, rfl, List.forall_mem_cons.2 ⟨⟨b, hb⟩, hpre⟩, hx⟩
        · cases h
    · rintro ⟨pre, x, post, h, hpre, hx⟩
      cases pre with
      | nil =>
        obtain ⟨rfl, -⟩ := List.cons.inj h
        exact Or.inl hx
      | cons y pre =>
        obtain ⟨rfl, htail⟩ := List.cons.inj h
        obtain ⟨⟨b, hb⟩, hpre'⟩ := List.forall_mem_cons.1 hpre
        exact Or.inr ⟨b, hb, bind_eq_error.2 (Or.inl (ih.2 ⟨pre, x, post, htail, hpre', hx⟩))⟩

/-! ### Column types -/

/-- `LogicalTypeId`, for the types without parameters. -/
inductive LogicalTypeId
  | boolean
  | tinyint
  | smallint
  | integer
  | bigint
  | float
  | double
  | date
  | time
  | timestamp
  | timestampTz
  | varchar
  | uuid
  | blob
  deriving DecidableEq, Repr

/-- `LogicalType`. -/
inductive LogicalType
  | simple (id : LogicalTypeId)
  | decimal (width scale : ℕ)
  | list (child : LogicalType)
  | map (key value : LogicalType)
  | struct (children : List (String × LogicalType))
  deriving Repr

namespace LogicalType

mutual

/-- Equality of types, level by level. -/
def decEq : (a b : LogicalType) → Decidable (a = b)
  | .simple i, .simple j => decidable_of_iff (i = j) (by simp)
  | .decimal w s, .decimal w' s' => decidable_of_iff (w = w' ∧ s = s') (by simp)
  | .list a, .list b =>
    match decEq a b with
    | isTrue h => isTrue (by rw [h])
    | isFalse h => isFalse fun e => h (by cases e; rfl)
  | .map a b, .map a' b' =>
    match decEq a a', decEq b b' with
    | isTrue h, isTrue h' => isTrue (by rw [h, h'])
    | isFalse h, _ => isFalse fun e => h (by cases e; rfl)
    | _, isFalse h => isFalse fun e => h (by cases e; rfl)
  | .struct a, .struct b =>
    match decEqChildren a b with
    | isTrue h => isTrue (by rw [h])
    | isFalse h => isFalse fun e => h (by cases e; rfl)
  | .simple _, .decimal .. | .simple _, .list _ | .simple _, .map .. | .simple _, .struct _
  | .decimal .., .simple _ | .decimal .., .list _ | .decimal .., .map .. | .decimal .., .struct _
  | .list _, .simple _ | .list _, .decimal .. | .list _, .map .. | .list _, .struct _
  | .map .., .simple _ | .map .., .decimal .. | .map .., .list _ | .map .., .struct _
  | .struct _, .simple _ | .struct _, .decimal .. | .struct _, .list _ | .struct _, .map .. =>
    isFalse nofun

/-- Equality of the children of two structs. -/
def decEqChildren : (a b : List (String × LogicalType)) → Decidable (a = b)
  | [], [] => isTrue rfl
  | (n, t) :: r, (n', t') :: r' =>
    match decEq t t', decEqChildren r r' with
    | isTrue h, isTrue h' => decidable_of_iff (n = n') (by simp [h, h'])
    | isFalse h, _ => isFalse fun e => h (by cases e; rfl)
    | _, isFalse h => isFalse fun e => h (by cases e; rfl)
  | [], _ :: _ => isFalse nofun
  | _ :: _, [] => isFalse nofun

end

instance : DecidableEq LogicalType := decEq

end LogicalType

/-! ### Manifest lists and manifests -/

/-- The cast of an `int32_t` to an enumeration over `uint8_t`. -/
def toUInt8 (v : ℤ) : ℕ := (v % 256).toNat

/-- `IcebergManifestContentType` -/
inductive IcebergManifestContentType
  | data
  | delete
  /-- a value that is no enumerator -/
  | other (v : ℕ)
  deriving DecidableEq, Repr

/-- `IcebergManifestContentType(content)` -/
def IcebergManifestContentType.ofInt32 (v : ℤ) : IcebergManifestContentType :=
  match toUInt8 v with
  | 0 => .data
  | 1 => .delete
  | n => .other n

/-- `IcebergManifestEntryStatusType` -/
inductive IcebergManifestEntryStatusType
  | existing
  | added
  | deleted
  /-- a value that is no enumerator -/
  | other (v : ℕ)
  deriving DecidableEq, Repr

/-- `(IcebergManifestEntryStatusType)status` -/
def IcebergManifestEntryStatusType.ofInt32 (v : ℤ) : IcebergManifestEntryStatusType :=
  match toUInt8 v with
  | 0 => .existing
  | 1 => .added
  | 2 => .deleted
  | n => .other n

/-- `IcebergManifestEntryContentType` -/
inductive IcebergManifestEntryContentType
  | data
  | positionDeletes
  | equalityDeletes
  /-- a value that is no enumerator -/
  | other (v : ℕ)
  deriving DecidableEq, Repr

/-- `(IcebergManifestEntryContentType)content` -/
def IcebergManifestEntryContentType.ofInt32 (v : ℤ) : IcebergManifestEntryContentType :=
  match toUInt8 v with
  | 0 => .data
  | 1 => .positionDeletes
  | 2 => .equalityDeletes
  | n => .other n

/-- An entry in the manifest list file. -/
structure IcebergManifest where
  manifestPath : String
  sequenceNumber : ℤ
  content : IcebergManifestContentType
  deriving DecidableEq, Repr

/-- An entry in a manifest file. -/
structure IcebergManifestEntry where
  status : IcebergManifestEntryStatusType
  content : IcebergManifestEntryContentType
  filePath : String
  fileFormat : String
  recordCount : ℤ
  deriving DecidableEq, Repr

/-- The entry describes a file that is part of the snapshot. -/
def IcebergManifestEntry.live (e : IcebergManifestEntry) : Bool := e.status != .deleted

end DuckIceberg
