import DuckIceberg.Deletes

/-!
# Taking rows out of a chunk

`IcebergDeleteData::Apply` on the columns of a chunk: the row numbers are read through the unified
format of their vector, the positions of the rows that stay are written into a selection vector,
and every column is sliced by it.

* `select_spec`: what the loop writes;
* `rows_applyTo`: the rows of the chunk that are left, as `IcebergDeleteData.apply` says;
* `applyAt_exact`: so the cut of a file into chunks makes no difference, and sets of deletes that
  are applied one after the other are their union.
-/

namespace DuckIceberg

/-! ### Vectors -/

/-- `Vector`, by its vector type; `dictionary` refers to the values of a child. -/
inductive ColumnVector (ν : Type)
  | flat (data : List ν)
  | constant (value : ν)
  | dictionary (child : ColumnVector ν) (sel : List ℕ)

/-- `UnifiedVectorFormat` -/
structure UnifiedVectorFormat (ν : Type) where
  data : List ν
  /-- `sel->get_index` -/
  sel : ℕ → ℕ

namespace ColumnVector

variable {ν : Type} [Inhabited ν]

/-- `Vector::ToUnifiedFormat` -/
def toUnifiedFormat : ColumnVector ν → UnifiedVectorFormat ν
  | flat data => ⟨data, id⟩
  | constant value => ⟨[value], fun _ => 0⟩
  | dictionary child sel =>
    ⟨child.toUnifiedFormat.data, fun i => child.toUnifiedFormat.sel (sel.getD i 0)⟩

/-- The value at a position. -/
def value (v : ColumnVector ν) (i : ℕ) : ν :=
  v.toUnifiedFormat.data.getD (v.toUnifiedFormat.sel i) default

@[simp] theorem value_dictionary (child : ColumnVector ν) (sel : List ℕ) (i : ℕ) :
    (dictionary child sel).value i = child.value (sel.getD i 0) := rfl

end ColumnVector

/-- `DataChunk`, with columns of any vector types -/
structure VectorChunk (ν : Type) where
  data : List (ColumnVector ν)
  size : ℕ

namespace VectorChunk

variable {ν : Type} [Inhabited ν]

/-- The row at a position, with the values of all columns. -/
def row (chunk : VectorChunk ν) (i : ℕ) : List ν := chunk.data.map fun v => v.value i

/-- The rows of a chunk. -/
def rows (chunk : VectorChunk ν) : List (List ν) := (List.range chunk.size).map chunk.row

/-- `DataChunk::Slice` -/
def slice (chunk : VectorChunk ν) (sel : List ℕ) (count : ℕ) : VectorChunk ν :=
  ⟨chunk.data.map fun v => .dictionary v sel, count⟩

/-- A slice has the rows that are selected. -/
theorem rows_slice (chunk : VectorChunk ν) {sel : List ℕ} {count : ℕ} (h : count ≤ sel.length) :
    (chunk.slice sel count).rows = (sel.take count).map chunk.row := by
  have hlen : (sel.take count).length = count := by
    rw [List.length_take]
    omega
  refine List.ext_getElem (by simp [rows, slice, h]) fun i h1 h2 => ?_
  have hi : i < sel.length := by
    simp only [List.length_map, hlen] at h2
    omega
  simp only [rows, slice, row, List.getElem_map, List.getElem_range, List.map_map,
    List.getElem_take]
  refine List.map_congr_left fun v _ => ?_
  simp [hi]

end VectorChunk

/-! ### `Apply` -/

namespace IcebergDeleteData

/-- One round of the loop of `Apply`: the selection vector, and the position to write next. -/
def selectRow (tempInvalidRows : Finset ℤ) (rowIds : ℕ → ℤ) (st : List ℕ × ℕ) (tupleIdx : ℕ) :
    List ℕ × ℕ :=
  if rowIds tupleIdx ∈ tempInvalidRows then st else (st.1.set st.2 tupleIdx, st.2 + 1)

/-- The loop of `Apply`, from a selection vector of `count` positions -/
def select (tempInvalidRows : Finset ℤ) (rowIds : ℕ → ℤ) (count : ℕ) : List ℕ × ℕ :=
  (List.range count).foldl (selectRow tempInvalidRows rowIds) (List.replicate count 0, 0)

section Vectors

variable {ν : Type} [Inhabited ν]

/-- `Apply`; `int64` reads a value of a `BIGINT` column -/
def applyTo (int64 : ν → ℤ) (tempInvalidRows : Finset ℤ) (chunk : VectorChunk ν)
    (rowIdColumn : ColumnVector ν) : VectorChunk ν :=
  if chunk.size = 0 then chunk
  else
    let data := rowIdColumn.toUnifiedFormat
    let rowIds := fun tupleIdx => int64 (data.data.getD (data.sel tupleIdx) default)
    let result := select tempInvalidRows rowIds chunk.size
    chunk.slice result.1 result.2

end Vectors

/-- **The selection** that the loop writes: the positions of the rows that stay, in order.  It never
writes ahead of where it reads. -/
theorem select_spec (tempInvalidRows : Finset ℤ) (rowIds : ℕ → ℤ) (count : ℕ) :
    (select tempInvalidRows rowIds count).2 ≤ (select tempInvalidRows rowIds count).1.length ∧
      (select tempInvalidRows rowIds count).1.take (select tempInvalidRows rowIds count).2 =
        (List.range count).filter fun i => rowIds i ∉ tempInvalidRows := by
  -- after `n` rounds the positions written are those below `n` that stay
  have hloop : ∀ n ≤ count, ∀ st, st = (List.range n).foldl (selectRow tempInvalidRows rowIds)
      (List.replicate count 0, 0) → st.2 ≤ n ∧ st.1.length = count ∧
        st.1.take st.2 = (List.range n).filter fun i => rowIds i ∉ tempInvalidRows := by
    intro n
    induction n with
    | zero =>
      rintro - st rfl
      exact ⟨le_rfl, List.length_replicate, rfl⟩
    | succ n ih =>
      rintro hn st rfl
      obtain ⟨hle, hlen, htake⟩ := ih (by omega) _ rfl
      rw [List.range_succ, List.foldl_append, List.foldl_cons, List.foldl_nil]
      generalize (List.range n).foldl (selectRow tempInvalidRows rowIds)
        (List.replicate count 0, 0) = st at hle hlen htake
      obtain ⟨result, selectionIdx⟩ := st
      dsimp only at hle hlen htake
      rw [selectRow, List.filter_append, ← htake]
      by_cases hmem : rowIds n ∈ tempInvalidRows
      · rw [if_pos hmem]
        refine ⟨by dsimp only; omega, hlen, ?_⟩
        simp [hmem]
      · rw [if_neg hmem]
        have hlt : selectionIdx < result.length := by omega
        refine ⟨by dsimp only; omega, (List.length_set).trans hlen, ?_⟩
        dsimp only
        rw [List.take_succ_eq_append_getElem (by rwa [List.length_set]), List.getElem_set_self,
          List.take_set_of_le (Nat.le_refl _)]
        simp [hmem]
  obtain ⟨hle, hlen, htake⟩ := hloop count le_rfl _ rfl
  exact ⟨hle.trans hlen.ge, htake⟩

section Vectors

variable {ν : Type} [Inhabited ν] {int64 : ν → ℤ}

/-- The row number of a row, whose column has the number `k`. -/
def rowNumber (int64 : ν → ℤ) (k : ℕ) (row : List ν) : ℤ := int64 (row.getD k default)

theorem rowNumber_row {chunk : VectorChunk ν} {k : ℕ} (hk : k < chunk.data.length) (i : ℕ) :
    rowNumber int64 k (chunk.row i) = int64 (chunk.data[k].value i) := by
  unfold rowNumber VectorChunk.row
  simp [hk]

/-- **The rows that are left**, whatever the vectors are made of, are those that are left of the
rows of the chunk. -/
theorem rows_applyTo (tempInvalidRows : Finset ℤ) {chunk : VectorChunk ν} {k : ℕ}
    (hk : k < chunk.data.length) :
    (applyTo int64 tempInvalidRows chunk chunk.data[k]).rows =
      apply tempInvalidRows (rowNumber int64 k) chunk.rows := by
  rw [apply_eq_filter]
  by_cases hempty : chunk.size = 0
  · rw [applyTo, if_pos hempty, VectorChunk.rows, hempty]
    rfl
  · rw [applyTo, if_neg hempty]
    obtain ⟨hle, htake⟩ := select_spec tempInvalidRows (fun i => int64 (chunk.data[k].value i))
      chunk.size
    refine (VectorChunk.rows_slice chunk hle).trans ?_
    rw [htake, VectorChunk.rows, List.filter_map]
    refine congrArg (List.map chunk.row) (List.filter_congr fun i _ => ?_)
    rw [Function.comp_apply, rowNumber_row hk]

/-- The columns stay where they are. -/
theorem data_applyTo_length (tempInvalidRows : Finset ℤ) (chunk : VectorChunk ν)
    (rowIdColumn : ColumnVector ν) :
    (applyTo int64 tempInvalidRows chunk rowIdColumn).data.length = chunk.data.length := by
  unfold applyTo
  split_ifs
  · rfl
  · exact List.length_map _

/-- `Apply`, with the row numbers in the column number `k` -/
def applyAt (int64 : ν → ℤ) (k : ℕ) (tempInvalidRows : Finset ℤ) (chunk : VectorChunk ν) :
    Except Error (VectorChunk ν) :=
  match chunk.data[k]? with
  | none => .error ⟨.internal, "Attempted to access index out of range of a vector"⟩
  | some rowIdColumn => .ok (applyTo int64 tempInvalidRows chunk rowIdColumn)

theorem applyAt_of_lt (tempInvalidRows : Finset ℤ) {chunk : VectorChunk ν} {k : ℕ}
    (hk : k < chunk.data.length) :
    applyAt int64 k tempInvalidRows chunk =
      .ok (applyTo int64 tempInvalidRows chunk chunk.data[k]) := by
  rw [applyAt, List.getElem?_eq_getElem hk]

variable (int64) in
theorem exists_applyAt (tempInvalidRows : Finset ℤ) {chunk : VectorChunk ν} {k : ℕ}
    (hk : k < chunk.data.length) : ∃ chunk', applyAt int64 k tempInvalidRows chunk = .ok chunk' :=
  ⟨_, applyAt_of_lt tempInvalidRows hk⟩

/-- What `Apply` leaves of a chunk. -/
theorem applyAt_spec {tempInvalidRows : Finset ℤ} {chunk chunk' : VectorChunk ν} {k : ℕ}
    (h : applyAt int64 k tempInvalidRows chunk = .ok chunk') :
    chunk'.rows = chunk.rows.filter (fun row => rowNumber int64 k row ∉ tempInvalidRows) ∧
      k < chunk.data.length ∧ chunk'.data.length = chunk.data.length := by
  by_cases hk : k < chunk.data.length
  · rw [applyAt_of_lt tempInvalidRows hk] at h
    cases h
    refine ⟨?_, hk, data_applyTo_length tempInvalidRows chunk _⟩
    rw [rows_applyTo tempInvalidRows hk, apply_eq_filter]
  · rw [applyAt, List.getElem?_eq_none (by omega)] at h
    cases h

/-- What `Apply` leaves of chunks, one after the other. -/
theorem mapM_applyAt {tempInvalidRows : Finset ℤ} {chunks chunks' : List (VectorChunk ν)} {k : ℕ}
    (h : chunks.mapM (applyAt int64 k tempInvalidRows) = .ok chunks') :
    chunks'.flatMap VectorChunk.rows = (chunks.flatMap VectorChunk.rows).filter
      fun row => rowNumber int64 k row ∉ tempInvalidRows := by
  induction mapM_eq_ok.1 h with
  | nil => rfl
  | cons hchunk hchunks ih =>
    rw [List.flatMap_cons, List.flatMap_cons, List.filter_append, ih (mapM_eq_ok.2 hchunks),
      (applyAt_spec hchunk).1]

/-- **`Apply` is exact**: it leaves the rows whose number is not in the set, each once and in their
order.  So the cut of a file into chunks makes no difference, and sets that are applied one after
the other are their union; a set that is applied twice is applied once. -/
theorem applyAt_exact (int64 : ν → ℤ) (k : ℕ) :
    (∀ (rowIds : Finset ℤ) (chunk : VectorChunk ν), k < chunk.data.length →
      ∃ chunk', applyAt int64 k rowIds chunk = .ok chunk' ∧
        chunk'.rows = chunk.rows.filter fun row => rowNumber int64 k row ∉ rowIds) ∧
    (∀ (rowIds : Finset ℤ) (chunks chunks' left left' : List (VectorChunk ν)),
      chunks.flatMap VectorChunk.rows = chunks'.flatMap VectorChunk.rows →
        chunks.mapM (applyAt int64 k rowIds) = .ok left →
          chunks'.mapM (applyAt int64 k rowIds) = .ok left' →
            left.flatMap VectorChunk.rows = left'.flatMap VectorChunk.rows) ∧
    (∀ (rowIds : Finset ℤ) (chunk once : VectorChunk ν),
      applyAt int64 k rowIds chunk = .ok once →
        ∃ twice, applyAt int64 k rowIds once = .ok twice ∧ twice.rows = once.rows) ∧
    ∀ (rowIds rowIds' : Finset ℤ) (chunk first : VectorChunk ν),
      applyAt int64 k rowIds chunk = .ok first →
        ∃ second union, applyAt int64 k rowIds' first = .ok second ∧
          applyAt int64 k (rowIds ∪ rowIds') chunk = .ok union ∧ second.rows = union.rows := by
  refine ⟨fun rowIds chunk hk => ?_, fun rowIds chunks chunks' left left' heq hleft hleft' => ?_,
    fun rowIds chunk once honce => ?_, fun rowIds rowIds' chunk first hfirst => ?_⟩
  · obtain ⟨chunk', hok⟩ := exists_applyAt int64 rowIds hk
    exact ⟨chunk', hok, (applyAt_spec hok).1⟩
  · rw [mapM_applyAt hleft, mapM_applyAt hleft', heq]
  · obtain ⟨hrows, hk, hlen⟩ := applyAt_spec honce
    obtain ⟨twice, hok⟩ := exists_applyAt int64 rowIds (hk.trans_eq hlen.symm)
    refine ⟨twice, hok, ?_⟩
    rw [(applyAt_spec hok).1, hrows, List.filter_filter]
    exact List.filter_congr fun row _ => Bool.and_self _
  · obtain ⟨hrows, hk, hlen⟩ := applyAt_spec hfirst
    obtain ⟨second, hsecond⟩ := exists_applyAt int64 rowIds' (hk.trans_eq hlen.symm)
    obtain ⟨union, hunion⟩ := exists_applyAt int64 (rowIds ∪ rowIds') hk
    refine ⟨second, union, hsecond, hunion, ?_⟩
    rw [(applyAt_spec hsecond).1, (applyAt_spec hunion).1, hrows, List.filter_filter]
    refine List.filter_congr fun row _ => ?_
    simp only [Finset.mem_union, not_or, Bool.decide_and]
    exact Bool.and_comm _ _

/-- A chunk of three rows whose row numbers stand in a dictionary, beside a constant column. -/
def dictionaryChunk : VectorChunk ℤ :=
  ⟨[.constant 7, .dictionary (.flat [20, 21, 22]) [2, 0, 1]], 3⟩

/-- Its rows in two chunks. -/
def flatChunks : List (VectorChunk ℤ) :=
  [⟨[.flat [7], .flat [22]], 1⟩, ⟨[.constant 7, .flat [20, 21]], 2⟩]

/-- The rows 22 and 21 are left, in either case. -/
theorem applyAt_exact_dictionary :
    (∃ chunk', applyAt id 1 {20} dictionaryChunk = .ok chunk' ∧ chunk'.rows = [[7, 22], [7, 21]]) ∧
      ∃ left left', [dictionaryChunk].mapM (applyAt id 1 {20}) = .ok left ∧
        flatChunks.mapM (applyAt id 1 {20}) = .ok left' ∧
          left.flatMap VectorChunk.rows = left'.flatMap VectorChunk.rows := by
  obtain ⟨hexact, hcut, -, -⟩ := applyAt_exact (id : ℤ → ℤ) 1
  obtain ⟨chunk', hok, hrows⟩ := hexact {20} dictionaryChunk (by decide)
  exact ⟨⟨chunk', hok, hrows.trans (by decide)⟩, _, _, rfl, rfl,
    hcut {20} [dictionaryChunk] flatChunks _ _ (by decide) rfl rfl⟩

end Vectors

end IcebergDeleteData

end DuckIceberg
