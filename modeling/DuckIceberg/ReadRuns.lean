import DuckIceberg.ManifestReader

/-!
# Runs of reads

Sequences of `ReadEntries` calls on one reader, and sequences of files installed in it.

* `readSeq_spec`: what a sequence of calls offers and leaves is a subsequence of what was ahead
  of the cursor, and all of it exactly when each call spares the rows it does not offer;
* `readSeq_finishes`: enough calls come to the end of the file;
* `readAll_spec`: what reading to the end appends, and where it stops when a delivery throws.
-/

namespace DuckIceberg

open Strings Stride

namespace ManifestReader

section Runs

variable {α : Type} (op : ManifestFormat α)

/-! ### Installing a file -/

/-- The reader was made with the functions of `op`. -/
structure ReaderOf (r : ManifestReader) : Prop where
  nameMapping : r.nameMapping = op.populateNameMapping
  schemaValidation : r.schemaValidation = op.verifySchema

theorem make_readerOf : (make op).ReaderOf op := ⟨rfl, rfl⟩

variable {op} in
theorem ReaderOf.same {r r' : ManifestReader} (h : r.ReaderOf op) (hs : Same r r') :
    r'.ReaderOf op :=
  ⟨hs.nameMapping.trans h.nameMapping, hs.schemaValidation.trans h.schemaValidation⟩

/-- The map of the columns of a scan. -/
def nameMap (scan : AvroScan) : NameMap :=
  (populate op.populateNameMapping scan.columns.zipIdx .empty).2

/-- The scan is read without an exception into a chunk with the column types `types`, and
`chunks` are its entries, delivery by delivery. -/
structure Readable (types : List LogicalType) (scan : AvroScan) (chunks : List (List α)) :
    Prop where
  populates : (populate op.populateNameMapping scan.columns.zipIdx .empty).1 = .ok ()
  verifies : op.verifySchema (nameMap op scan) = true
  unread : scan.finished = false
  delivers : scan.stream.map (piece op (nameMap op scan) types) = chunks.map .rows

/-- The column types of the chunk once the scan is installed. -/
def layout (r : ManifestReader) (scan : AvroScan) : List LogicalType :=
  if r.scan.isNone then scan.returnTypes else r.chunk.types

/-- The chunk of a reader that was just given a scan. -/
theorem install_chunk (r : ManifestReader) (scan : AvroScan) :
    (r.install scan).chunk = .initializeTypes (r.layout scan) := by
  unfold install layout
  split_ifs <;> rfl

/-- What `Initialize` leaves, whether it throws or not. -/
theorem initializeWith_types (r : ManifestReader) (scan : AvroScan) :
    (r.initializeWith scan).2.chunk = .initializeTypes (r.layout scan) ∧
      (r.initializeWith scan).2.scan = some scan ∧
      (r.initializeWith scan).2.finished = false ∧
      (r.initializeWith scan).2.nameMapping = r.nameMapping ∧
      (r.initializeWith scan).2.schemaValidation = r.schemaValidation ∧
      (r.initializeWith scan).2.skipDeleted = r.skipDeleted := by
  have hchunk := install_chunk r scan
  unfold initializeWith
  split
  · exact ⟨hchunk, rfl, rfl, rfl, rfl, rfl⟩
  · split_ifs <;> exact ⟨hchunk, rfl, rfl, rfl, rfl, rfl⟩

/-- A reader whose cursor is at the head of a file. -/
structure Fresh (r : ManifestReader) (types : List LogicalType) (chunks : List (List α)) :
    Prop where
  reading : r.Reading
  current_eq : r.current op = []
  ahead_eq : r.ahead op = chunks.map .rows
  types_eq : r.chunk.types = types
  size_eq : r.chunk.size = 0

/-- `Initialize` puts the cursor at the head of the file. -/
theorem initializeWith_spec {r : ManifestReader} (hr : r.ReaderOf op) {scan : AvroScan}
    {chunks : List (List α)} (h : Readable op (r.layout scan) scan chunks) :
    ∃ r', r.initializeWith scan = (.ok (), r') ∧ r'.Fresh op (r.layout scan) chunks ∧
      r'.ReaderOf op ∧ r'.skipDeleted = r.skipDeleted := by
  have hpop : populate r.nameMapping scan.columns.zipIdx .empty = (.ok (), nameMap op scan) := by
    rw [hr.nameMapping, ← h.populates]
    rfl
  refine ⟨{ r.install scan with nameToVec := nameMap op scan }, ?_, ?_,
    ⟨hr.nameMapping, hr.schemaValidation⟩, rfl⟩
  · rw [initializeWith, hpop]
    simp only [hr.schemaValidation, h.verifies, if_true]
  · have hused : (r.install scan).chunk.size ≤ (r.install scan).offset := by
      rw [install_chunk]
      exact Nat.zero_le _
    obtain ⟨hcur, hahead⟩ := view_used_up op
      (r := { r.install scan with nameToVec := nameMap op scan }) hused
    refine ⟨⟨rfl, scan, rfl, h.unread⟩, hcur, ?_, by rw [install_chunk]; rfl,
      by rw [install_chunk]; rfl⟩
    rw [hahead, pieces, install_chunk, ← h.delivers]
    rfl

/-! ### One call -/

/-- The rows that have not been passed. -/
def rest (r : ManifestReader) : List α := r.current op ++ rowsOf (r.ahead op)

/-- No delivery to come throws. -/
def Clean (r : ManifestReader) : Prop := ∃ chunks : List (List α), r.ahead op = chunks.map .rows

/-- The call passes over no row that `keep` wants without offering it. -/
def SparesRows (keep : α → Bool) (count : ℕ) (r : ManifestReader) : Prop :=
  Spares keep (op.wanted r.skipDeleted) count 0 (.rows (r.current op) :: r.ahead op)

/-- The call passes over no row without offering it. -/
def SparesAll (count : ℕ) (r : ManifestReader) : Prop := SparesRows op (fun _ => true) count r

theorem view_exhausted {r : ManifestReader} (h : r.Exhausted) :
    r.current op = [] ∧ r.ahead op = [] := by
  obtain ⟨-, hsize, s, hs, -, hst⟩ := h
  obtain ⟨hcur, hahead⟩ := view_used_up op (r := r) (by omega)
  exact ⟨hcur, by rw [hahead]; simp [stream, hs, hst, pieces]⟩

/-- What a call has read, whatever its callback does with the rows. -/
def after (count : ℕ) (r : ManifestReader) : ManifestReader :=
  (r.readEntries count (appendTo op) []).2.1

theorem after_same (count : ℕ) (r : ManifestReader) : Same r (after op count r) :=
  readEntries_same r count (appendTo op) []

/-- What holds before and after every call. -/
structure Ready (r : ManifestReader) : Prop where
  reading_or : r.Reading ∨ r.Exhausted
  clean : r.Clean op

/-- **One call** offers some of the rows ahead and leaves others; no row that `keep` wants is missing
exactly when the call spares them.  It ends with the entries asked for or at the end. -/
theorem readEntries_ready {r : ManifestReader} (hr : r.Ready op) {skip : Bool}
    (hskip : r.skipDeleted = skip) {count : ℕ} (hn : r.NoWrap count) :
    (after op count r).Ready op ∧ ∃ offered : List α,
      (offered ++ (after op count r).rest op).Sublist (r.rest op) ∧
      (∀ keep : α → Bool, (∀ x, op.wanted skip x = true → keep x = true) →
        ((offered ++ (after op count r).rest op).filter keep = (r.rest op).filter keep ↔
          SparesRows op keep count r)) ∧
      ((after op count r).Exhausted ∨ offered.countP (op.wanted skip) = count) ∧
      ∀ (σ : Type) (callback : Callback σ) (w : RowWise op skip callback) (acc : σ),
        ∃ n, r.readEntries count callback acc = (.ok n, after op count r, w.push acc offered) := by
  subst hskip
  obtain ⟨hr | hr, chunks, hchunks⟩ := hr
  · have hpost := fun (σ : Type) (callback : Callback σ) (w : RowWise op r.skipDeleted callback) =>
      readEntries_spec op w hr rfl hn
    have hahead := pull_ahead count (op.wanted r.skipDeleted) 0 (r.current op) (r.ahead op)
    have hsub := pull_sublist count (op.wanted r.skipDeleted) 0 (r.current op) (r.ahead op)
    have hiff := fun (keep : α → Bool)
        (hkeep : ∀ x, op.wanted r.skipDeleted x = true → keep x = true) =>
      pull_filter_eq_iff count (op.wanted r.skipDeleted) keep hkeep 0 (r.current op) (r.ahead op)
    have hfilled := pull_scanned count (op.wanted r.skipDeleted) 0 (Nat.zero_le _)
      (r.current op) (r.ahead op)
    simp only [ReadPost] at hpost
    generalize pull count (op.wanted r.skipDeleted) 0 (r.current op) (r.ahead op) = p at *
    obtain ⟨offered, stop, current, ahead⟩ := p
    have hcall : ∀ (σ : Type) (callback : Callback σ) (w : RowWise op r.skipDeleted callback)
        (acc : σ) (n : ℕ), (r.readEntries count callback acc).1 = .ok n →
        r.readEntries count callback acc = (.ok n, after op count r, w.push acc offered) := by
      intro σ callback w acc n hok
      obtain ⟨hpush, -⟩ := hpost σ callback w acc
      have hsame := readEntries_together op w (appendTo_rowWise op r.skipDeleted) count acc []
      exact Prod.ext hok (Prod.ext hsame.2 hpush)
    obtain ⟨-, -, hstop⟩ := hpost _ _ (appendTo_rowWise op r.skipDeleted) []
    cases stop with
    | filled =>
      obtain ⟨-, hat⟩ := hstop
      obtain ⟨pre, hpre⟩ := hahead
      have hrest : (after op count r).rest op = current ++ rowsOf ahead := by
        rw [rest, after, hat.current_eq, hat.ahead_eq]
      refine ⟨⟨Or.inl hat.reading, ?_⟩, offered, by rw [hrest]; exact hsub,
        by rw [hrest]; exact hiff, ?_, ?_⟩
      · rw [hchunks, List.map_eq_append_iff] at hpre
        obtain ⟨-, post, -, -, hpost'⟩ := hpre
        exact ⟨post, hat.ahead_eq.trans hpost'.symm⟩
      · exact Or.inr ((Nat.zero_add _).symm.trans (hfilled.2.1 rfl))
      · intro σ callback w acc
        exact ⟨_, hcall σ callback w acc _ (hpost σ callback w acc).2.2.1⟩
    | exhausted =>
      obtain ⟨-, hex⟩ := hstop
      obtain ⟨-, rfl, rfl⟩ := hahead
      obtain ⟨hcur', hahead'⟩ := view_exhausted op hex
      have hrest : (after op count r).rest op = [] := by
        rw [rest, after, hcur', hahead']
        rfl
      refine ⟨⟨Or.inr hex, [], hahead'⟩, offered, by rw [hrest]; exact hsub,
        by rw [hrest]; exact hiff, Or.inl hex, ?_⟩
      intro σ callback w acc
      exact ⟨_, hcall σ callback w acc _ (hpost σ callback w acc).2.2.1⟩
    | failed e =>
      obtain ⟨-, pre, hfail⟩ := hahead
      simp only [hchunks, List.map_eq_append_iff, List.map_eq_cons_iff] at hfail
      grind
  · obtain ⟨hcur, hahead⟩ := view_exhausted op hr
    have hafter : after op count r = r := by
      rw [after, readEntries_exhausted hr]
    rw [hafter]
    refine ⟨⟨Or.inr hr, chunks, hchunks⟩, [], List.Sublist.refl _, ?_, Or.inl hr, ?_⟩
    · intro keep _
      simp [SparesRows, hcur, hahead, Spares]
    · intro σ callback w acc
      exact ⟨0, by rw [readEntries_exhausted hr, w.push_nil]⟩

/-! ### Sequences of calls -/

/-- `ReadEntries` calls one after the other, until one throws. -/
def readSeq {σ : Type} (callback : Callback σ) :
    List ℕ → ManifestReader → σ → Except Error Unit × ManifestReader × σ
  | [], r, acc => (.ok (), r, acc)
  | count :: counts, r, acc =>
    match r.readEntries count callback acc with
    | (.error e, r', acc') => (.error e, r', acc')
    | (.ok _, r', acc') => readSeq callback counts r' acc'

theorem readSeq_same {σ : Type} (callback : Callback σ) (counts : List ℕ) (r : ManifestReader)
    (acc : σ) : Same r (readSeq callback counts r acc).2.1 := by
  induction counts generalizing r acc with
  | nil => exact Same.refl r
  | cons count counts ih =>
    have hsame := readEntries_same r count callback acc
    rw [readSeq]
    generalize r.readEntries count callback acc = out at hsame ⊢
    rcases out with ⟨e | n, r', acc'⟩
    · exact hsame
    · exact hsame.trans (ih r' acc')

/-- `P` holds of the state before each call. -/
def EachCall (P : ℕ → ManifestReader → Prop) : List ℕ → ManifestReader → Prop
  | [], _ => True
  | count :: counts, r => P count r ∧ EachCall P counts (after op count r)

theorem eachCall_and {P Q : ℕ → ManifestReader → Prop} {counts : List ℕ} {r : ManifestReader}
    (h : EachCall op (fun count r => P count r ∧ Q count r) counts r) :
    EachCall op P counts r ∧ EachCall op Q counts r := by
  induction counts generalizing r with
  | nil => exact ⟨trivial, trivial⟩
  | cons count counts ih =>
    obtain ⟨⟨hp, hq⟩, hrest⟩ := h
    exact ⟨⟨hp, (ih hrest).1⟩, ⟨hq, (ih hrest).2⟩⟩

/-- The lambda that keeps the rows it is offered, deleted ones included. -/
def offeredTo : Callback (List α) := fun chunk offset count input rows => do
  let (_, produced) ← op.produceEntries chunk offset count input []
  let (rows, _) ← op.produceEntries chunk offset count ⟨input.nameToVec, false⟩ rows
  return (rows, produced)

/-- Keeping the rows offered is row by row. -/
def offeredTo_rowWise (skip : Bool) : RowWise op skip (offeredTo op) where
  push acc es := acc ++ es
  push_nil acc := by simp
  push_append acc es es' := by simp
  ok h _ _ hle acc := by
    simp only [offeredTo]
    rw [op.produceEntries_of_rows ⟨_, skip⟩ h hle, op.produceEntries_of_rows ⟨_, false⟩ h hle]
    simp [bind, Except.bind, pure, Except.pure]
  error h offset count acc := by
    simp only [offeredTo]
    rw [op.produceEntries_of_error ⟨_, skip⟩ h]
    rfl

/-- **A sequence of calls** offers some of the rows ahead and leaves others; none is missing
exactly when each call spares the rows it does not offer. -/
theorem readSeq_spec {r : ManifestReader} (hr : r.Ready op) {skip : Bool}
    (hskip : r.skipDeleted = skip) (counts : List ℕ)
    (hn : EachCall op (fun count r => r.NoWrap count) counts r) :
    ∃ (r' : ManifestReader) (offered : List α), r'.Ready op ∧
      (offered ++ r'.rest op).Sublist (r.rest op) ∧
      (offered ++ r'.rest op = r.rest op ↔ EachCall op (SparesAll op) counts r) ∧
      ∀ (σ : Type) (callback : Callback σ) (w : RowWise op skip callback) (acc : σ),
        readSeq callback counts r acc = (.ok (), r', w.push acc offered) := by
  induction counts generalizing r with
  | nil =>
    refine ⟨r, [], hr, List.Sublist.refl _, ?_, ?_⟩
    · simp [EachCall]
    · intro σ callback w acc
      rw [readSeq, w.push_nil]
  | cons count counts ih =>
    obtain ⟨hcount, hcounts⟩ := hn
    obtain ⟨hready, offered, hsub, hiff, -, hcall⟩ := readEntries_ready op hr hskip hcount
    have hall : offered ++ (after op count r).rest op = r.rest op ↔ SparesAll op count r := by
      simpa [SparesAll] using hiff (fun _ => true) (fun _ _ => rfl)
    obtain ⟨r', offered', hready', hsub', hiff', hcall'⟩ :=
      ih hready ((after_same op count r).skipDeleted.trans hskip) hcounts
    refine ⟨r', offered ++ offered', hready', ?_, ?_, ?_⟩
    · rw [List.append_assoc]
      exact ((List.Sublist.refl _).append hsub').trans hsub
    · rw [EachCall, ← hall, ← hiff', List.append_assoc]
      constructor
      · intro h
        -- both calls together lose nothing, so neither does the first
        have hfirst : offered ++ (after op count r).rest op = r.rest op := by
          refine hsub.antisymm ?_
          rw [← h]
          exact (List.Sublist.refl _).append hsub'
        refine ⟨hfirst, ?_⟩
        rw [← hfirst, List.append_cancel_left_eq] at h
        exact h
      · rintro ⟨h, h'⟩
        rw [h', h]
    · intro σ callback w acc
      obtain ⟨n, hn⟩ := hcall σ callback w acc
      rw [readSeq, hn, w.push_append]
      exact hcall' σ callback w (w.push acc offered)

theorem readSeq_exhausted {σ : Type} {r : ManifestReader} (h : r.Exhausted)
    (callback : Callback σ) (counts : List ℕ) (acc : σ) :
    readSeq callback counts r acc = (.ok (), r, acc) := by
  induction counts with
  | nil => rfl
  | cons count counts ih =>
    rw [readSeq, readEntries_exhausted h]
    exact ih

/-- More calls than rows reach the end of the file. -/
theorem readSeq_finishes {r : ManifestReader} (hr : r.Ready op) (counts : List ℕ)
    (hn : EachCall op (fun count r => 1 ≤ count ∧ r.NoWrap count) counts r)
    (hlen : (r.rest op).length < counts.length) (acc : List α) :
    (readSeq (appendTo op) counts r acc).2.1.isFinished = true := by
  induction counts generalizing r acc with
  | nil => simp at hlen
  | cons count counts ih =>
    obtain ⟨⟨hpos, hcount⟩, hcounts⟩ := hn
    obtain ⟨hready, offered, hsub, -, hprogress, hcall⟩ := readEntries_ready op hr rfl hcount
    obtain ⟨n, hn⟩ := hcall _ _ (appendTo_rowWise op r.skipDeleted) acc
    rw [readSeq, hn]
    rcases hprogress with hex | hcountP
    · simp only [readSeq_exhausted hex]
      exact isFinished_of_exhausted hex
    · have hle := hsub.length_le
      have hoffered := List.countP_le_length (p := op.wanted r.skipDeleted) (l := offered)
      rw [List.length_append] at hle
      rw [List.length_cons] at hlen
      exact ih hready hcounts (by omega) _

/-! ### Reading to the end -/

/-- One round of `while (!Finished()) ReadEntries(STANDARD_VECTOR_SIZE, …)`. -/
def readAllRound (st : ManifestReader × List α) :
    Loop.Step (ManifestReader × List α) (Except Error Unit × ManifestReader × List α) :=
  if st.1.isFinished then .done (.ok (), st)
  else
    match st.1.readEntries standardVectorSize (appendTo op) st.2 with
    | (.error e, st') => .done (.error e, st')
    | (.ok _, st') => .next st'

/-- The loop of `ScanAvroMetadata` and of `InitializeFiles`, with the vector it appends to. -/
def readAll (r : ManifestReader) (result : List α) : Except Error Unit × ManifestReader × List α :=
  (Loop.run (readAllRound op) r.readFuel (r, result)).getD
    (.error ⟨.diverged, "ReadEntries"⟩, r, result)

/-- What a loop that stops this way returns. -/
def result : Stop Error → Except Error Unit
  | .failed e => .error e
  | _ => .ok ()

/-- Where the cursor is when a source has stopped. -/
def Stopped (r : ManifestReader) (stop : Stop Error) (left : List (Piece α Error)) : Prop :=
  match stop with
  | .filled => False
  | .exhausted => r.Exhausted
  | .failed _ => r.At op [] left

theorem noWrap_of_le (r : ManifestReader) {count : ℕ} (h : count ≤ 2 ^ 63) : r.NoWrap count := by
  have := r.chunk.size_le
  simp only [standardVectorSize] at this
  exact ⟨by omega, fun _ => by omega⟩

/-- No delivery has more rows than a chunk has room for. -/
theorem piece_length {m : NameMap} {types : List LogicalType} {f : Fetch} {es : List α}
    (h : piece op m types f = .rows es) : es.length ≤ standardVectorSize := by
  unfold piece at h
  cases hf : f types with
  | error e => simp [hf] at h
  | ok b =>
    simp only [hf] at h
    cases hd : op.rows m ((DataChunk.initializeTypes types).fill b) with
    | error e => simp [hd] at h
    | ok es' =>
      simp only [hd, Piece.rows.injEq] at h
      subst h
      rw [op.rows_length hd]
      exact b.size_le

theorem readAll_run {skip : Bool} {tail left : List (Piece α Error)} {stop : Stop Error}
    (ht : StopsAt standardVectorSize (op.wanted skip) tail stop left) (n : ℕ) :
    ∀ (ps : List (List α)) (r : ManifestReader) (acc : List α), r.skipDeleted = skip →
      r.At op [] (ps.map .rows ++ tail) → (∀ p ∈ ps, p.length ≤ standardVectorSize) →
      ps.length + 1 < n →
      ∃ r', Loop.run (readAllRound op) n (r, acc) = some (result stop, r',
          acc ++ (kept standardVectorSize (op.wanted skip) 0 ps).filter (op.wanted skip)) ∧
        r'.Stopped op stop left ∧ Same r r' := by
  induction n with
  | zero => intro ps r acc _ _ _ hn; omega
  | succ n ih =>
    intro ps r acc hskip hr hps hn
    have hread := readEntries_spec op (appendTo_rowWise op skip) hr.reading hskip
      (r.noWrap_of_le (by decide : standardVectorSize ≤ 2 ^ 63)) acc
    rw [ReadPost, hr.current_eq, hr.ahead_eq] at hread
    have hround : readAllRound op (r, acc) =
        match r.readEntries standardVectorSize (appendTo op) acc with
        | (.error e, st') => .done (.error e, st')
        | (.ok _, st') => .next st' := by
      rw [readAllRound, if_neg (by simp [isFinished_of_reading hr.reading])]
    generalize r.readEntries standardVectorSize (appendTo op) acc = out at hread hround
    obtain ⟨res, r', acc'⟩ := out
    rcases pull_kept ht 0 (by decide) ps hps with ⟨offered, pre, qs, rfl, hpre, h, hkept⟩ | h
    · -- the call has its entries: the loop goes on with the chunks that are left
      rw [h] at hread
      obtain ⟨rfl, hsame, rfl, hat⟩ := hread
      have hlen : 0 < pre.length := List.length_pos_iff.2 hpre
      obtain ⟨r'', hrun, hstop, hsame'⟩ := ih qs r'
        (acc ++ offered.filter (op.wanted skip)) (hsame.skipDeleted.trans hskip) hat
        (fun p hp => hps p (List.mem_append_right _ hp)) (by simp at hn; omega)
      refine ⟨r'', ?_, hstop, hsame.trans hsame'⟩
      rw [Loop.run_succ_next hround]
      rw [← hkept, List.filter_append, ← List.append_assoc]
      exact hrun
    · rw [h] at hread
      obtain ⟨rfl, hsame, hstop⟩ := hread
      cases stop with
      | filled => exact absurd rfl ht.1
      | exhausted =>
        obtain ⟨rfl, hex⟩ := hstop
        obtain ⟨m, rfl⟩ : ∃ m, n = m + 1 := ⟨n - 1, by omega⟩
        refine ⟨r', ?_, hex, hsame⟩
        rw [Loop.run_succ_next hround]
        refine Loop.run_succ_done ?_ m
        rw [readAllRound, if_pos (isFinished_of_exhausted hex)]
        rfl
      | failed e =>
        obtain ⟨rfl, hat⟩ := hstop
        exact ⟨r', Loop.run_succ_done hround n, hat, hsame⟩

/-- The chunks ahead of the cursor are deliveries of the scan. -/
theorem ahead_chunks {r : ManifestReader} {ps : List (List α)} {tail : List (Piece α Error)}
    (h : r.ahead op = ps.map .rows ++ tail) :
    (∀ p ∈ ps, p.length ≤ standardVectorSize) ∧ ps.length ≤ r.stream.length := by
  have hpieces : ∀ ps : List (List α), ∀ tail, r.pieces op r.stream = ps.map .rows ++ tail →
      (∀ p ∈ ps, p.length ≤ standardVectorSize) ∧ ps.length ≤ r.stream.length := by
    intro ps tail h
    constructor
    · intro p hp
      have hmem : Piece.rows p ∈ r.pieces op r.stream := by
        rw [h]
        exact List.mem_append_left _ (List.mem_map_of_mem hp)
      obtain ⟨f, -, hf⟩ := List.mem_map.1 hmem
      exact piece_length op hf
    · have hlen := congrArg List.length h
      simp only [pieces, List.length_map, List.length_append] at hlen
      omega
  unfold ahead at h
  cases hc : r.chunkRows op with
  | ok es =>
    rw [hc] at h
    exact hpieces ps tail h
  | error e =>
    rw [hc] at h
    cases ps with
    | nil => exact ⟨by simp, Nat.zero_le _⟩
    | cons p ps => simp at h

/-- The loop that reads to the end, within the rounds it is allowed. -/
theorem readAll_at {r : ManifestReader} {ps : List (List α)} {tail left : List (Piece α Error)}
    {stop : Stop Error} (ht : StopsAt standardVectorSize (op.wanted r.skipDeleted) tail stop left)
    (hr : r.At op [] (ps.map .rows ++ tail)) (acc : List α) :
    ∃ r', Loop.run (readAllRound op) r.readFuel (r, acc) = some (result stop, r', acc ++
        (kept standardVectorSize (op.wanted r.skipDeleted) 0 ps).filter
          (op.wanted r.skipDeleted)) ∧
      r'.Stopped op stop left ∧ Same r r' := by
  obtain ⟨hps, hlen⟩ := ahead_chunks op hr.ahead_eq
  refine readAll_run op ht r.readFuel ps r acc rfl hr hps ?_
  have ⟨_, s, hs, _⟩ := hr.reading
  simp only [stream, hs, Option.map_some, Option.getD_some] at hlen
  simp only [readFuel, hs, standardVectorSize]
  omega

/-- **Reading to the end** collects the entries that the calls are offered, up to the delivery
that throws. -/
theorem readAll_spec {r : ManifestReader} {ps : List (List α)} {tail left : List (Piece α Error)}
    {stop : Stop Error} (ht : StopsAt standardVectorSize (op.wanted r.skipDeleted) tail stop left)
    (hr : r.At op [] (ps.map .rows ++ tail)) (acc : List α) :
    ∃ r', readAll op r acc = (result stop, r', acc ++
        (kept standardVectorSize (op.wanted r.skipDeleted) 0 ps).filter
          (op.wanted r.skipDeleted)) ∧
      r'.Stopped op stop left ∧ Same r r' := by
  obtain ⟨r', hrun, hstop⟩ := readAll_at op ht hr acc
  exact ⟨r', by rw [readAll, hrun]; rfl, hstop⟩

end Runs

end ManifestReader

end DuckIceberg
