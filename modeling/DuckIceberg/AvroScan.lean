import DuckIceberg.Lib.Strings
import DuckIceberg.Types

/-!
# Chunks and Avro scans

The `read_avro` table function is not part of the repository.  What the code relies on is that
each call fills the chunk it is given with the next rows of the file, at most
`STANDARD_VECTOR_SIZE` of them, that a call without rows ends the scan, and that a call may
throw.  `Fetch` is one such call: it sees the column types of the chunk it has to fill, because
the code may hand it a chunk that was laid out for another scan.
-/

namespace DuckIceberg

open Strings

/-- `ColumnIndex`: a column and, inside a struct column, a child. -/
structure ColumnIndex where
  index : ℕ
  childIndexes : List ℕ := []
  deriving DecidableEq, Repr

/-- `case_insensitive_map_t<ColumnIndex>` -/
abbrev NameMap := CIMap ColumnIndex

/-- `name_to_vec.at(name)` -/
def NameMap.atName (m : NameMap) (name : String) : Except Error ColumnIndex :=
  match NormMap.find? m name with
  | some i => .ok i
  | none => .error ⟨.outOfRange, "unordered_map::at"⟩

/-- `name_to_vec.count(name)`, as a truth value -/
def NameMap.count (m : NameMap) (name : String) : Bool := (NormMap.find? m name).isSome

/-- `GetChildIndex(0).GetPrimaryIndex()` -/
def ColumnIndex.child (i : ColumnIndex) : Except Error ℕ :=
  match i.childIndexes with
  | c :: _ => .ok c
  | [] => .error ⟨.internal, "Attempted to access index 0 within vector of size 0"⟩

/-- A flattened column of a chunk. -/
inductive Vector
  | int32 (data : List ℤ)
  | int64 (data : List ℤ)
  | varchar (data : List String)
  | struct (entries : List Vector)
  /-- a column of any other type -/
  | other

/-- `FlatVector::GetData<int32_t>` -/
def Vector.int32s : Vector → Except Error (List ℤ)
  | .int32 d => .ok d
  | _ => .error ⟨.undefined, "the vector does not hold int32_t"⟩

/-- `FlatVector::GetData<int64_t>` -/
def Vector.int64s : Vector → Except Error (List ℤ)
  | .int64 d => .ok d
  | _ => .error ⟨.undefined, "the vector does not hold int64_t"⟩

/-- `FlatVector::GetData<string_t>` -/
def Vector.varchars : Vector → Except Error (List String)
  | .varchar d => .ok d
  | _ => .error ⟨.undefined, "the vector does not hold string_t"⟩

/-- `StructVector::GetEntries` -/
def Vector.entries : Vector → Except Error (List Vector)
  | .struct es => .ok es
  | _ => .error ⟨.undefined, "the vector is no struct"⟩

/-- `vectors[i]`, which DuckDB's vectors check -/
def column (vectors : List Vector) (i : ℕ) : Except Error Vector :=
  match vectors[i]? with
  | some v => .ok v
  | none => .error ⟨.internal, "Attempted to access index out of range of a vector"⟩

/-- The rows of one call of the table function. -/
structure Batch where
  data : List Vector
  size : ℕ
  size_pos : 0 < size
  size_le : size ≤ standardVectorSize

/-- `DataChunk`: its column types, its columns and its number of rows. -/
structure DataChunk where
  types : List LogicalType
  data : List Vector
  size : ℕ
  size_le : size ≤ standardVectorSize

/-- `DataChunk::Initialize` -/
def DataChunk.initializeTypes (types : List LogicalType) : DataChunk :=
  ⟨types, [], 0, Nat.zero_le _⟩

/-- `DataChunk::Reset`, which keeps the column types -/
def DataChunk.reset (chunk : DataChunk) : DataChunk := .initializeTypes chunk.types

/-- The chunk once the table function has written `b` into it. -/
def DataChunk.fill (chunk : DataChunk) (b : Batch) : DataChunk :=
  ⟨chunk.types, b.data, b.size, b.size_le⟩

@[simp] theorem DataChunk.initializeTypes_types (ts : List LogicalType) :
    (DataChunk.initializeTypes ts).types = ts := rfl
@[simp] theorem DataChunk.initializeTypes_size (ts : List LogicalType) :
    (DataChunk.initializeTypes ts).size = 0 := rfl
@[simp] theorem DataChunk.reset_types (c : DataChunk) : c.reset.types = c.types := rfl
@[simp] theorem DataChunk.reset_size (c : DataChunk) : c.reset.size = 0 := rfl
@[simp] theorem DataChunk.fill_types (c : DataChunk) (b : Batch) : (c.fill b).types = c.types := rfl
@[simp] theorem DataChunk.fill_size (c : DataChunk) (b : Batch) : (c.fill b).size = b.size := rfl
@[simp] theorem DataChunk.fill_data (c : DataChunk) (b : Batch) : (c.fill b).data = b.data := rfl

/-- One call of `avro_scan->function` that is not the last: given the types of the chunk it is
to fill, it delivers rows or throws. -/
abbrev Fetch := List LogicalType → Except Error Batch

/-- `AvroScan`: the columns found by the bind, and the calls still to come. -/
structure AvroScan where
  /-- `return_names` with `return_types` -/
  columns : List (String × LogicalType)
  stream : List Fetch
  finished : Bool := false

namespace AvroScan

/-- `return_types` -/
def returnTypes (s : AvroScan) : List LogicalType := s.columns.map Prod.snd

/-- `AvroScan::GetNext`.  A call that throws leaves the chunk as it was. -/
def getNext (s : AvroScan) (chunk : DataChunk) : Except Error Bool × AvroScan × DataChunk :=
  match s.stream with
  | [] => (.ok false, { s with finished := true }, chunk.reset)
  | f :: fs =>
    match f chunk.types with
    | .error e => (.error e, { s with stream := fs }, chunk)
    | .ok b => (.ok true, { s with stream := fs }, chunk.fill b)

/-- `AvroScan::InitializeChunk` -/
def initializeChunk (s : AvroScan) : DataChunk := .initializeTypes s.returnTypes

end AvroScan

end DuckIceberg
