import DuckIceberg.Lib.Loop
import DuckIceberg.Lib.Stride
import DuckIceberg.Manifest

/-!
# The manifest reader

`ManifestReader` is a cursor over the chunks of an Avro scan.  The functions are those of
`manifest_reader.cpp`; a function that may throw returns its result or its exception together
with the state it leaves behind.

`readEntries` refines `Stride.pull` (`readEntries_spec`): seen from outside, a reader is the rest
of its current chunk and the deliveries after it, and a call takes rows from there by strides of
`count` rows.
-/

namespace DuckIceberg

open Strings Stride

/-- The result of a function that may throw, with the state it leaves behind. -/
abbrev Outcome (σ α : Type) := Except Error α × σ

/-- `manifest_reader_read`, with the captured variables passed along: it appends to them and
returns how many entries it produced. -/
abbrev Callback (σ : Type) :=
  DataChunk → ℕ → ℕ → ManifestReaderInput → σ → Except Error (σ × ℕ)

/-- `ManifestReader` -/
structure ManifestReader where
  scan : Option AvroScan
  chunk : DataChunk
  offset : ℕ
  finished : Bool
  nameToVec : NameMap
  nameMapping : ℕ → LogicalType → String → NameMap → Except Error NameMap
  schemaValidation : NameMap → Bool
  skipDeleted : Bool

namespace ManifestReader

/-- The constructor, called with `OP::PopulateNameMapping` and `OP::VerifySchema`. -/
def make {α : Type} (op : ManifestFormat α) : ManifestReader where
  scan := none
  chunk := .initializeTypes []
  offset := 0
  finished := true
  nameToVec := .empty
  nameMapping := op.populateNameMapping
  schemaValidation := op.verifySchema
  skipDeleted := false

/-- The loop of `Initialize` over the columns of the scan. -/
def populate (mapping : ℕ → LogicalType → String → NameMap → Except Error NameMap) :
    List ((String × LogicalType) × ℕ) → NameMap → Outcome NameMap Unit
  | [], m => (.ok (), m)
  | ((name, type), i) :: cs, m =>
    match mapping i type name m with
    | .ok m' => populate mapping cs m'
    | .error e => (.error e, m)

/-- `ManifestReader::Initialize` before the columns are mapped.  Only the first call lays the
chunk out. -/
def install (r : ManifestReader) (scan : AvroScan) : ManifestReader :=
  { r with
    scan := some scan
    chunk := if r.scan.isNone then scan.initializeChunk else r.chunk.reset
    finished := false
    offset := 0
    nameToVec := .empty }

/-- `ManifestReader::Initialize` -/
def initializeWith (r : ManifestReader) (scan : AvroScan) : Outcome ManifestReader Unit :=
  match populate r.nameMapping scan.columns.zipIdx .empty with
  | (.error e, m) => (.error e, { r.install scan with nameToVec := m })
  | (.ok (), m) =>
    if r.schemaValidation m then
      (.ok (), { r.install scan with nameToVec := m })
    else
      (.error ⟨.invalidInput, "Invalid schema detected in a manifest/manifest entry"⟩,
        { r.install scan with nameToVec := m })

/-- `ManifestReader::Finished` -/
def isFinished (r : ManifestReader) : Bool :=
  match r.scan with
  | none => true
  | some s => s.finished

/-- The head of the loop of `ReadEntries`: fetch a chunk when the current one is used up.
`false` says that there was none. -/
def refill (r : ManifestReader) : Outcome ManifestReader Bool :=
  if r.chunk.size ≤ r.offset then
    match r.scan with
    | none => (.error ⟨.undefined, "a null pointer is dereferenced"⟩, r)
    | some s =>
      match s.getNext r.chunk with
      | (.error e, s', chunk') => (.error e, { r with scan := some s', chunk := chunk' })
      | (.ok _, s', chunk') =>
        if chunk'.size = 0 then
          (.ok false, { r with scan := some s', chunk := chunk', finished := true })
        else
          (.ok true, { r with scan := some s', chunk := chunk', offset := 0 })
  else (.ok true, r)

/-- The variables of the loop of `ReadEntries`. -/
structure ReadState (σ : Type) where
  reader : ManifestReader
  scanned : ℕ
  acc : σ

/-- One round of the loop of `ReadEntries`. -/
def readRound {σ : Type} (count : ℕ) (callback : Callback σ) (st : ReadState σ) :
    Loop.Step (ReadState σ) (Except Error ℕ × ManifestReader × σ) :=
  if st.scanned < count then
    match st.reader.refill with
    | (.error e, r) => .done (.error e, r, st.acc)
    | (.ok false, r) => .done (.ok st.scanned, r, st.acc)
    | (.ok true, r) =>
      let remaining := count - st.scanned
      let toScan := min (r.chunk.size - r.offset) remaining
      match callback r.chunk r.offset toScan ⟨r.nameToVec, r.skipDeleted⟩ st.acc with
      | .error e => .done (.error e, r, st.acc)
      | .ok (acc, produced) =>
        .next ⟨{ r with offset := idx (r.offset + count) }, idx (st.scanned + produced), acc⟩
  else .done (.ok st.scanned, st.reader, st.acc)

/-- The number of rounds `ReadEntries` can need: one for each row. -/
def readFuel (r : ManifestReader) : ℕ :=
  match r.scan with
  | none => 1
  | some s => (s.stream.length + 1) * (standardVectorSize + 1) + 1

/-- `ManifestReader::ReadEntries` -/
def readEntries {σ : Type} (r : ManifestReader) (count : ℕ) (callback : Callback σ) (acc : σ) :
    Except Error ℕ × ManifestReader × σ :=
  if r.scan.isNone || r.finished then (.ok 0, r, acc)
  else
    (Loop.run (readRound count callback) r.readFuel ⟨r, 0, acc⟩).getD
      (.error ⟨.diverged, "ReadEntries"⟩, r, acc)

/-! ### The reader as a cursor -/

section Cursor

variable {α : Type} (op : ManifestFormat α)

/-- A delivery, as seen by a reader whose chunk has the column types `types`. -/
def piece (nameToVec : NameMap) (types : List LogicalType) (f : Fetch) : Piece α Error :=
  match f types with
  | .error e => .fails e
  | .ok b =>
    match op.rows nameToVec ((DataChunk.initializeTypes types).fill b) with
    | .ok es => .rows es
    | .error e => .stuck e

/-- The deliveries of a scan, as seen by the reader. -/
def pieces (r : ManifestReader) (stream : List Fetch) : List (Piece α Error) :=
  stream.map (piece op r.nameToVec r.chunk.types)

/-- The rows of the chunk, and nothing when there is no chunk to read from. -/
def chunkRows (r : ManifestReader) : Except Error (List α) :=
  if r.offset < r.chunk.size then op.rows r.nameToVec r.chunk else .ok []

/-- What is left of the current chunk. -/
def current (r : ManifestReader) : List α :=
  match r.chunkRows op with
  | .ok es => es.drop r.offset
  | .error _ => []

/-- What comes after it. -/
def ahead (r : ManifestReader) : List (Piece α Error) :=
  match r.chunkRows op with
  | .ok _ => r.pieces op ((r.scan.map AvroScan.stream).getD [])
  | .error e => .stuck e :: r.pieces op ((r.scan.map AvroScan.stream).getD [])

/-- The reader has a scan that has not reported its end. -/
def Reading (r : ManifestReader) : Prop :=
  r.finished = false ∧ ∃ s, r.scan = some s ∧ s.finished = false

/-- The reader is at the cursor `cur`, `ps`. -/
structure At (r : ManifestReader) (cur : List α) (ps : List (Piece α Error)) : Prop where
  reading : r.Reading
  current_eq : r.current op = cur
  ahead_eq : r.ahead op = ps

/-- The scan has reported its end, and nothing is left. -/
def Exhausted (r : ManifestReader) : Prop :=
  r.finished = true ∧ r.chunk.size = 0 ∧
    ∃ s, r.scan = some s ∧ s.finished = true ∧ s.stream = []

/-- What reading leaves as it is. -/
structure Same (r r' : ManifestReader) : Prop where
  types : r'.chunk.types = r.chunk.types
  nameToVec : r'.nameToVec = r.nameToVec
  nameMapping : r'.nameMapping = r.nameMapping
  schemaValidation : r'.schemaValidation = r.schemaValidation
  skipDeleted : r'.skipDeleted = r.skipDeleted
  columns : r'.scan.map AvroScan.columns = r.scan.map AvroScan.columns

theorem Same.refl (r : ManifestReader) : Same r r := ⟨rfl, rfl, rfl, rfl, rfl, rfl⟩

theorem Same.trans {r₁ r₂ r₃ : ManifestReader} (h : Same r₁ r₂) (h' : Same r₂ r₃) :
    Same r₁ r₃ :=
  ⟨h'.types.trans h.types, h'.nameToVec.trans h.nameToVec, h'.nameMapping.trans h.nameMapping,
    h'.schemaValidation.trans h.schemaValidation, h'.skipDeleted.trans h.skipDeleted,
    h'.columns.trans h.columns⟩

theorem isFinished_of_reading {r : ManifestReader} (h : r.Reading) : r.isFinished = false := by
  obtain ⟨-, s, hs, hf⟩ := h
  simp [isFinished, hs, hf]

theorem isFinished_of_exhausted {r : ManifestReader} (h : r.Exhausted) : r.isFinished = true := by
  obtain ⟨-, -, s, hs, hf, -⟩ := h
  simp [isFinished, hs, hf]

theorem Reading.at {r : ManifestReader} (h : r.Reading) : r.At op (r.current op) (r.ahead op) :=
  ⟨h, rfl, rfl⟩

/-- The calls of the table function that are still to come. -/
def stream (r : ManifestReader) : List Fetch := (r.scan.map AvroScan.stream).getD []

theorem view_used_up {r : ManifestReader} (h : r.chunk.size ≤ r.offset) :
    r.current op = [] ∧ r.ahead op = r.pieces op r.stream := by
  have hrows : r.chunkRows op = .ok [] := if_neg (by omega)
  simp [current, ahead, hrows, stream]

theorem view_rows {r : ManifestReader} {es : List α} (h : r.offset < r.chunk.size)
    (hd : op.rows r.nameToVec r.chunk = .ok es) :
    r.current op = es.drop r.offset ∧ r.ahead op = r.pieces op r.stream := by
  have hrows : r.chunkRows op = .ok es := by rw [chunkRows, if_pos h, hd]
  simp [current, ahead, hrows, stream]

theorem view_stuck {r : ManifestReader} {e : Error} (h : r.offset < r.chunk.size)
    (hd : op.rows r.nameToVec r.chunk = .error e) :
    r.current op = [] ∧ r.ahead op = .stuck e :: r.pieces op r.stream := by
  have hrows : r.chunkRows op = .error e := by rw [chunkRows, if_pos h, hd]
  simp [current, ahead, hrows, stream]

/-- A bound on the rounds a reader can still make. -/
def weight (r : ManifestReader) : ℕ :=
  r.stream.length * (standardVectorSize + 1) + (r.chunk.size - r.offset)

/-- No sum of the cursor and `count` leaves the range of an `idx_t`. -/
def NoWrap (r : ManifestReader) (count : ℕ) : Prop :=
  count < 2 ^ 64 ∧ (r.offset < r.chunk.size → r.offset + count < 2 ^ 64)

/-- The head of the loop, seen from outside. -/
theorem refill_spec {r : ManifestReader} (h : r.Reading) {c s : ℕ} (hs : s < c)
    (live : α → Bool) :
    Same r r.refill.2 ∧
    match r.refill.1 with
    | .error e => r.refill.2.Reading ∧ pull c live s (r.current op) (r.ahead op) =
        ⟨[], .failed e, r.refill.2.current op, r.refill.2.ahead op⟩
    | .ok false => r.refill.2.Exhausted ∧ pull c live s (r.current op) (r.ahead op) =
        ⟨[], .exhausted, [], []⟩
    | .ok true => r.refill.2.Reading ∧ r.refill.2.offset < r.refill.2.chunk.size ∧
        r.refill.2.weight ≤ r.weight ∧ (∀ n, r.NoWrap n → r.refill.2.NoWrap n) ∧
        pull c live s (r.current op) (r.ahead op) =
          pull c live s (r.refill.2.current op) (r.refill.2.ahead op) := by
  obtain ⟨hfin, a, ha, haf⟩ := h
  by_cases hlt : r.offset < r.chunk.size
  · have hr : r.refill = (.ok true, r) := by rw [refill, if_neg (by omega)]
    rw [hr]
    exact ⟨Same.refl r, ⟨hfin, a, ha, haf⟩, hlt, le_refl _, fun _ h => h, rfl⟩
  have hle : r.chunk.size ≤ r.offset := by omega
  have hstream : r.stream = a.stream := by simp [stream, ha]
  obtain ⟨hcur, hahead⟩ := view_used_up op hle
  rw [hstream] at hahead
  cases hst : a.stream with
  | nil =>
    have hr : r.refill = (.ok false,
        { r with
          scan := some { a with finished := true }
          chunk := r.chunk.reset
          finished := true }) := by
      simp only [refill, if_pos hle, ha, AvroScan.getNext, hst]
      rfl
    rw [hr, hcur, hahead, hst]
    exact ⟨⟨rfl, rfl, rfl, rfl, rfl, by simp [ha]⟩, ⟨rfl, rfl, _, rfl, rfl, rfl⟩, pull_nil hs⟩
  | cons f fs =>
    cases hf : f r.chunk.types with
    | error e =>
      have hr : r.refill = (.error e, { r with scan := some { a with stream := fs } }) := by
        simp only [refill, if_pos hle, ha, AvroScan.getNext, hst, hf]
      have hp : r.pieces op (f :: fs) = .fails e :: r.pieces op fs := by
        simp [pieces, piece, hf]
      obtain ⟨hcur', hahead'⟩ :=
        view_used_up op (r := { r with scan := some { a with stream := fs } }) hle
      rw [hr, hcur, hahead, hst, hp, pull_fails hs]
      refine ⟨⟨rfl, rfl, rfl, rfl, rfl, by simp [ha]⟩, ⟨hfin, _, rfl, haf⟩, ?_⟩
      rw [hcur', hahead']
      rfl
    | ok b =>
      have hb : ¬ (r.chunk.fill b).size = 0 := by
        have := b.size_pos
        simp only [DataChunk.fill_size]
        omega
      have hr : r.refill = (.ok true,
          { r with
            scan := some { a with stream := fs }
            chunk := r.chunk.fill b
            offset := 0 }) := by
        simp only [refill, if_pos hle, ha, AvroScan.getNext, hst, hf, if_neg hb]
      rw [hr]
      refine ⟨⟨rfl, rfl, rfl, rfl, rfl, by simp [ha]⟩, ⟨hfin, _, rfl, haf⟩, b.size_pos, ?_, ?_, ?_⟩
      · have := b.size_le
        simp only [weight, stream, ha, hst, Option.map_some, Option.getD_some, List.length_cons,
          DataChunk.fill_size, Nat.add_mul]
        omega
      · rintro n ⟨hn, -⟩
        exact ⟨hn, fun _ => by simpa using hn⟩
      · rw [hcur, hahead, hst]
        set r' : ManifestReader :=
          { r with
            scan := some { a with stream := fs }
            chunk := r.chunk.fill b
            offset := 0 }
        cases hd : op.rows r.nameToVec ((DataChunk.initializeTypes r.chunk.types).fill b) with
        | ok es =>
          have hp : r.pieces op (f :: fs) = .rows es :: r.pieces op fs := by
            simp [pieces, piece, hf, hd]
          obtain ⟨hcur', hahead'⟩ := view_rows op (r := r') b.size_pos hd
          rw [hp, pull_rows hs, hcur', hahead']
          rfl
        | error e =>
          have hp : r.pieces op (f :: fs) = .stuck e :: r.pieces op fs := by
            simp [pieces, piece, hf, hd]
          obtain ⟨hcur', hahead'⟩ := view_stuck op (r := r') b.size_pos hd
          rw [hp, hcur', hahead']
          rfl

/-! ### Callbacks that go row by row -/

/-- A callback that passes the entries of its slice on, in order, and counts those a reader with
this `skip_deleted` wants. -/
structure RowWise {σ : Type} (skip : Bool) (callback : Callback σ) where
  push : σ → List α → σ
  push_nil : ∀ acc, push acc [] = acc
  push_append : ∀ acc es es', push acc (es ++ es') = push (push acc es) es'
  ok : ∀ {m : NameMap} {chunk : DataChunk} {es : List α}, op.rows m chunk = .ok es →
    ∀ {offset count : ℕ}, offset + count ≤ chunk.size → ∀ acc,
      callback chunk offset count ⟨m, skip⟩ acc =
        .ok (push acc ((es.drop offset).take count),
          ((es.drop offset).take count).countP (op.wanted skip))
  error : ∀ {m : NameMap} {chunk : DataChunk} {e : Error}, op.rows m chunk = .error e →
    ∀ offset count acc, callback chunk offset count ⟨m, skip⟩ acc = .error e

/-- The lambda that appends what the producer makes of the slice to a vector. -/
def appendTo : Callback (List α) := fun chunk offset count input result =>
  op.produceEntries chunk offset count input result

/-- Appending to a vector is row by row. -/
def appendTo_rowWise (skip : Bool) : RowWise op skip (appendTo op) where
  push acc es := acc ++ es.filter (op.wanted skip)
  push_nil acc := by simp
  push_append acc es es' := by simp
  ok h _ _ hle acc := op.produceEntries_of_rows ⟨_, skip⟩ h hle acc
  error h offset count acc := op.produceEntries_of_error ⟨_, skip⟩ h offset count acc

/-! ### `ReadEntries` -/

theorem refill_same (r : ManifestReader) : Same r r.refill.2 := by
  unfold refill
  split_ifs with h
  · cases hs : r.scan with
    | none => exact Same.refl r
    | some s =>
      simp only [AvroScan.getNext]
      cases s.stream with
      | nil => exact ⟨rfl, rfl, rfl, rfl, rfl, by simp [hs]⟩
      | cons f fs =>
        simp only
        cases f r.chunk.types with
        | error e => exact ⟨rfl, rfl, rfl, rfl, rfl, by simp [hs]⟩
        | ok b =>
          simp only
          split_ifs <;> exact ⟨rfl, rfl, rfl, rfl, rfl, by simp [hs]⟩
  · exact Same.refl r

/-- A chunk to read from has a row at the cursor. -/
theorem refill_offset {r : ManifestReader} (h : r.refill.1 = .ok true) :
    r.refill.2.offset ≤ r.refill.2.chunk.size := by
  unfold refill at h ⊢
  split_ifs at h ⊢ with hle
  · cases hs : r.scan with
    | none => rw [hs] at h; cases h
    | some s =>
      simp only [hs, AvroScan.getNext] at h ⊢
      cases hst : s.stream with
      | nil => simp [hst] at h
      | cons f fs =>
        simp only [hst] at h ⊢
        cases hf : f r.chunk.types with
        | error e => simp [hf] at h
        | ok b =>
          have hb : ¬ b.size = 0 := b.size_pos.ne'
          simp [hb]
  · exact (Nat.not_le.1 hle).le

/-- One round leaves the layout and the name map as they are. -/
theorem readRound_same {σ : Type} {count : ℕ} {callback : Callback σ} (st : ReadState σ) :
    (∀ out, readRound count callback st = .done out → Same st.reader out.2.1) ∧
      ∀ st', readRound count callback st = .next st' → Same st.reader st'.reader := by
  have hsame := refill_same st.reader
  unfold readRound
  split_ifs
  · generalize st.reader.refill = res at hsame ⊢
    rcases res with ⟨e | b, r⟩
    · refine ⟨?_, nofun⟩
      rintro out ⟨⟩
      exact hsame
    · cases b with
      | false =>
        refine ⟨?_, nofun⟩
        rintro out ⟨⟩
        exact hsame
      | true =>
        simp only
        cases callback r.chunk r.offset (min (r.chunk.size - r.offset) (count - st.scanned))
          ⟨r.nameToVec, r.skipDeleted⟩ st.acc with
        | error e =>
          refine ⟨?_, nofun⟩
          rintro out ⟨⟩
          exact hsame
        | ok produced =>
          refine ⟨nofun, ?_⟩
          rintro st' ⟨⟩
          exact hsame.trans ⟨rfl, rfl, rfl, rfl, rfl, rfl⟩
  · refine ⟨?_, nofun⟩
    rintro out ⟨⟩
    exact Same.refl _

/-- What the loop of `ReadEntries` leaves, as the request it is of the cursor. -/
def ReadPost {σ : Type} {skip : Bool} {callback : Callback σ} (w : RowWise op skip callback)
    (count : ℕ) (st : ReadState σ) (out : Except Error ℕ × ManifestReader × σ) : Prop :=
  let p := pull count (op.wanted skip) st.scanned (st.reader.current op) (st.reader.ahead op)
  out.2.2 = w.push st.acc p.offered ∧ Same st.reader out.2.1 ∧
  match p.stop with
  | .filled => out.1 = .ok (st.scanned + p.offered.countP (op.wanted skip)) ∧
      out.2.1.At op p.current p.ahead
  | .exhausted => out.1 = .ok (st.scanned + p.offered.countP (op.wanted skip)) ∧
      out.2.1.Exhausted
  | .failed e => out.1 = .error e ∧ out.2.1.At op p.current p.ahead

/-- What holds at the head of the loop of `ReadEntries`. -/
structure ReadInv {σ : Type} (skip : Bool) (count : ℕ) (st : ReadState σ) : Prop where
  reading : st.reader.Reading
  skip_eq : st.reader.skipDeleted = skip
  noWrap : st.reader.NoWrap count
  scanned_le : st.scanned ≤ count

/-- The cursor after `offset += count`. -/
theorem view_advance {r : ManifestReader} {es : List α} (hlt : r.offset < r.chunk.size)
    (hd : op.rows r.nameToVec r.chunk = .ok es) {c : ℕ} (hn : r.NoWrap c) :
    let r' : ManifestReader := { r with offset := idx (r.offset + c) }
    r'.current op = (r.current op).drop c ∧ r'.ahead op = r.ahead op ∧ r'.NoWrap c := by
  have hlen : es.length = r.chunk.size := op.rows_length hd
  have hidx : idx (r.offset + c) = r.offset + c := idx_of_lt (hn.2 hlt)
  obtain ⟨hcur, hahead⟩ := view_rows op hlt hd
  rw [hidx]
  by_cases h : r.offset + c < r.chunk.size
  · obtain ⟨hcur', hahead'⟩ := view_rows op (r := { r with offset := r.offset + c }) h hd
    refine ⟨?_, ?_, hn.1, fun _ => ?_⟩
    · rw [hcur', hcur, List.drop_drop]
    · rw [hahead', hahead]
      rfl
    · have := r.chunk.size_le
      simp only [standardVectorSize] at this
      show r.offset + c + c < 2 ^ 64
      omega
  · obtain ⟨hcur', hahead'⟩ :=
      view_used_up op (r := { r with offset := r.offset + c }) (Nat.not_lt.1 h)
    refine ⟨?_, ?_, hn.1, fun h' => absurd h' h⟩
    · rw [hcur', hcur, List.drop_drop, List.drop_eq_nil_iff.2 (by omega)]
    · rw [hahead', hahead]
      rfl

/-- A round that leaves the loop. -/
theorem readRound_done {σ : Type} {skip : Bool} {callback : Callback σ}
    (w : RowWise op skip callback) {count : ℕ} {st : ReadState σ}
    {out : Except Error ℕ × ManifestReader × σ} (h : ReadInv skip count st)
    (hb : readRound count callback st = .done out) : ReadPost op w count st out := by
  by_cases hlt : st.scanned < count
  · obtain ⟨hsame, hspec⟩ := refill_spec op h.reading hlt (op.wanted skip)
    rw [readRound, if_pos hlt] at hb
    rcases hr : st.reader.refill with ⟨e | b, r⟩
    · rw [hr] at hb hsame hspec
      obtain ⟨hreading, hpull⟩ := hspec
      cases hb
      rw [ReadPost, hpull]
      exact ⟨(w.push_nil _).symm, hsame, rfl, hreading.at op⟩
    · rw [hr] at hb hsame hspec
      cases b with
      | false =>
        obtain ⟨hexhausted, hpull⟩ := hspec
        cases hb
        rw [ReadPost, hpull]
        exact ⟨(w.push_nil _).symm, hsame, rfl, hexhausted⟩
      | true =>
        obtain ⟨hreading, hoff, -, -, hpull⟩ := hspec
        obtain rfl : r.skipDeleted = skip := hsame.skipDeleted.trans h.skip_eq
        simp only at hb
        cases hd : op.rows r.nameToVec r.chunk with
        | ok es =>
          simp only at hoff
          rw [w.ok hd (by omega)] at hb
          cases hb
        | error e =>
          rw [w.error hd] at hb
          cases hb
          obtain ⟨hcur, hahead⟩ := view_stuck op hoff hd
          rw [ReadPost, hpull]
          simp only [hcur, hahead]
          rw [pull_stuck hlt]
          exact ⟨(w.push_nil _).symm, hsame, rfl, hreading, hcur, hahead⟩
  · rw [readRound, if_neg hlt] at hb
    cases hb
    rw [ReadPost, pull_of_le (by omega)]
    exact ⟨(w.push_nil _).symm, Same.refl _, rfl, h.reading.at op⟩

/-- A round that goes round again offers one block of rows, and moves on by `count` of them. -/
theorem readRound_next {σ : Type} {skip : Bool} {callback : Callback σ}
    (w : RowWise op skip callback) {count : ℕ} {st st' : ReadState σ} (h : ReadInv skip count st)
    (hb : readRound count callback st = .next st') :
    ReadInv skip count st' ∧ st'.reader.weight < st.reader.weight ∧
      ∀ out, ReadPost op w count st' out → ReadPost op w count st out := by
  by_cases hlt : st.scanned < count
  · obtain ⟨hsame, hspec⟩ := refill_spec op h.reading hlt (op.wanted skip)
    rw [readRound, if_pos hlt] at hb
    rcases hr : st.reader.refill with ⟨e | b, r⟩
    · rw [hr] at hb
      cases hb
    · rw [hr] at hb hsame hspec
      cases b with
      | false => cases hb
      | true =>
        obtain ⟨hreading, hoff, hweight, hwrap, hpull⟩ := hspec
        simp only at hoff hweight hwrap hpull hsame hreading
        obtain rfl : r.skipDeleted = skip := hsame.skipDeleted.trans h.skip_eq
        simp only at hb
        cases hd : op.rows r.nameToVec r.chunk with
        | error e =>
          rw [w.error hd] at hb
          cases hb
        | ok es =>
          have hlen : es.length = r.chunk.size := op.rows_length hd
          have hn : r.NoWrap count := hwrap count h.noWrap
          obtain ⟨hcur, -⟩ := view_rows op hoff hd
          obtain ⟨hcur', hahead', hn'⟩ := view_advance op hoff hd hn
          -- the slice offered is the head of what is left of the chunk
          have hslice : (es.drop r.offset).take (min (r.chunk.size - r.offset) (count - st.scanned))
              = (r.current op).take (count - st.scanned) := by
            rw [hcur, List.take_eq_take_iff, List.length_drop, hlen]
            omega
          have hproduced : st.scanned +
              ((r.current op).take (count - st.scanned)).countP (op.wanted r.skipDeleted) ≤ count :=
            take_countP_le (op.wanted r.skipDeleted) hlt.le (r.current op)
          have hidx : idx (st.scanned +
              ((r.current op).take (count - st.scanned)).countP (op.wanted r.skipDeleted)) =
              st.scanned +
                ((r.current op).take (count - st.scanned)).countP (op.wanted r.skipDeleted) :=
            idx_of_lt (by have := hn.1; omega)
          have hne : r.current op ≠ [] := by
            rw [hcur, Ne, List.drop_eq_nil_iff]
            omega
          rw [w.ok hd (by omega)] at hb
          simp only [hslice, hidx] at hb
          cases hb
          refine ⟨⟨⟨hreading.1, hreading.2⟩, rfl, hn', hproduced⟩, ?_, ?_⟩
          · refine lt_of_lt_of_le ?_ hweight
            simp only [weight, stream, idx_of_lt (hn.2 hoff)]
            omega
          · rintro out ⟨hpush, hsame', hstop⟩
            simp only [hcur', hahead'] at hpush hstop
            rw [ReadPost, hpull, pull_current hlt hne]
            refine ⟨?_, hsame.trans ⟨hsame'.types, hsame'.nameToVec, hsame'.nameMapping,
              hsame'.schemaValidation, hsame'.skipDeleted, hsame'.columns⟩, ?_⟩
            · rw [hpush, Pull.prepend_offered, w.push_append]
            · simpa only [Pull.prepend_stop, Pull.prepend_offered, Pull.prepend_current,
                Pull.prepend_ahead, List.countP_append, ← Nat.add_assoc] using hstop
  · rw [readRound, if_neg hlt] at hb
    cases hb

/-- **Main result.** A call of `ReadEntries` is one request of the cursor. -/
theorem readEntries_spec {σ : Type} {skip : Bool} {callback : Callback σ}
    (w : RowWise op skip callback) {r : ManifestReader} (hr : r.Reading)
    (hskip : r.skipDeleted = skip) {count : ℕ} (hn : r.NoWrap count) (acc : σ) :
    ReadPost op w count ⟨r, 0, acc⟩ (r.readEntries count callback acc) := by
  have ⟨hfin, s, hs, _⟩ := hr
  have hfuel : r.weight < r.readFuel := by
    have := r.chunk.size_le
    simp only [weight, stream, readFuel, hs, Option.map_some, Option.getD_some, Nat.add_mul]
    omega
  obtain ⟨out, hout, hpost⟩ := Loop.run_spec (ReadInv skip count) (fun st => st.reader.weight)
    (ReadPost op w count) (fun _ _ => readRound_done op w) (fun _ _ => readRound_next op w)
    r.readFuel ⟨r, 0, acc⟩ ⟨hr, hskip, hn, Nat.zero_le _⟩ hfuel
  rw [readEntries, if_neg (by simp [hs, hfin]), hout]
  exact hpost

/-- Reading leaves the layout and the name map as they are, however it ends. -/
theorem readEntries_same {σ : Type} (r : ManifestReader) (count : ℕ) (callback : Callback σ)
    (acc : σ) : Same r (r.readEntries count callback acc).2.1 := by
  unfold readEntries
  split_ifs
  · exact Same.refl r
  cases hout : Loop.run (readRound count callback) r.readFuel ⟨r, 0, acc⟩ with
  | none => exact Same.refl r
  | some out =>
    refine Loop.run_elim (fun _ => True) (fun st out => Same st.reader out.2.1)
      ?_ ?_ trivial hout
    · intro st out _ hb
      exact (readRound_same st).1 out hb
    · intro st st' _ hb
      exact ⟨trivial, fun out h => ((readRound_same st).2 st' hb).trans h⟩

/-- Two row-wise callbacks go through the same rounds. -/
theorem readRound_together {σ τ : Type} {skip : Bool} {callback : Callback σ}
    {callback' : Callback τ} (w : RowWise op skip callback) (w' : RowWise op skip callback')
    (count : ℕ) (st : ReadState σ) (st' : ReadState τ)
    (h : st.reader = st'.reader ∧ st.scanned = st'.scanned ∧ st.reader.skipDeleted = skip) :
    Loop.Together
      (fun (s : ReadState σ) (t : ReadState τ) =>
        s.reader = t.reader ∧ s.scanned = t.scanned ∧ s.reader.skipDeleted = skip)
      (fun a b => a.1 = b.1 ∧ a.2.1 = b.2.1)
      (readRound count callback st) (readRound count callback' st') := by
  obtain ⟨reader, scanned, acc⟩ := st
  obtain ⟨reader', scanned', acc'⟩ := st'
  obtain ⟨rfl, rfl, hskip⟩ := h
  simp only at hskip
  have hsame := refill_same reader
  have hoff := refill_offset (r := reader)
  unfold readRound
  simp only
  split_ifs
  · generalize reader.refill = res at hsame hoff ⊢
    rcases res with ⟨e | b, r⟩
    · exact ⟨rfl, rfl⟩
    · cases b with
      | false => exact ⟨rfl, rfl⟩
      | true =>
        obtain rfl : r.skipDeleted = skip := hsame.skipDeleted.trans hskip
        have hle : r.offset + min (r.chunk.size - r.offset) (count - scanned) ≤ r.chunk.size := by
          have := hoff rfl
          simp only at this
          omega
        simp only
        cases hd : op.rows r.nameToVec r.chunk with
        | ok es =>
          rw [w.ok hd hle, w'.ok hd hle]
          exact ⟨rfl, rfl, rfl⟩
        | error e =>
          rw [w.error hd, w'.error hd]
          exact ⟨rfl, rfl⟩
  · exact ⟨rfl, rfl⟩

/-- What a call returns and leaves does not depend on what its callback does with the rows. -/
theorem readEntries_together {σ τ : Type} {r : ManifestReader} {callback : Callback σ}
    {callback' : Callback τ} (w : RowWise op r.skipDeleted callback)
    (w' : RowWise op r.skipDeleted callback') (count : ℕ) (acc : σ) (acc' : τ) :
    (r.readEntries count callback acc).1 = (r.readEntries count callback' acc').1 ∧
      (r.readEntries count callback acc).2.1 = (r.readEntries count callback' acc').2.1 := by
  unfold readEntries
  split_ifs
  · exact ⟨rfl, rfl⟩
  have hrel := Loop.run_together (readRound_together op w w' count) r.readFuel
    (s := ⟨r, 0, acc⟩) (t := ⟨r, 0, acc'⟩) ⟨rfl, rfl, rfl⟩
  generalize Loop.run (readRound count callback) r.readFuel ⟨r, 0, acc⟩ = out at hrel ⊢
  generalize Loop.run (readRound count callback') r.readFuel ⟨r, 0, acc'⟩ = out' at hrel ⊢
  cases hrel with
  | none => exact ⟨rfl, rfl⟩
  | some h => exact h

/-- A reader whose scan has reported its end reads nothing. -/
theorem readEntries_exhausted {σ : Type} {r : ManifestReader} (h : r.Exhausted) (count : ℕ)
    (callback : Callback σ) (acc : σ) :
    r.readEntries count callback acc = (.ok 0, r, acc) := by
  rw [readEntries, if_pos (by simp [h.1])]

end Cursor

end ManifestReader

end DuckIceberg
