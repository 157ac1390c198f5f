import DuckIceberg.MultiFileList

/-!
# Reading a file to its end

`scanInto` opens an Avro file, installs it in a reader and reads it until the reader has finished.
It succeeds exactly on the files that are delivered to the chunk of the reader without an exception
(`scanInto_of_readable`, `readable_of_scanInto`), and keeps of their entries what reading in
requests of 2048 rows does not pass over.
-/

namespace DuckIceberg

open Strings Stride

theorem openAvro_unread {ctx : ClientContext} {path : String} {options : IcebergOptions}
    {file : String} {scan : AvroScan} (h : openAvro ctx path options file = .ok scan) :
    scan.finished = false := by
  unfold openAvro at h
  cases hp : fullPath ctx path options file with
  | error e => simp [hp, Bind.bind, Except.bind] at h
  | ok p =>
    cases hs : ctx.readAvro p with
    | error e => simp [hp, hs, Bind.bind, Except.bind] at h
    | ok s =>
      simp only [hp, hs, Bind.bind, Except.bind, pure, Except.pure, Except.ok.injEq] at h
      rw [← h]

namespace ManifestReader

variable {α : Type} {op : ManifestFormat α}

theorem wanted_false_eq (op : ManifestFormat α) : op.wanted false = fun _ => true := by
  funext e
  exact op.wanted_false e

/-- The entries that are kept when `chunks` are read to their end. -/
def keptEntries (op : ManifestFormat α) (skip : Bool) (chunks : List (List α)) : List α :=
  (kept standardVectorSize (op.wanted skip) 0 chunks).filter (op.wanted skip)

/-- A reader that skips nothing keeps all it is offered. -/
theorem keptEntries_false (chunks : List (List α)) :
    keptEntries op false chunks = kept standardVectorSize (fun _ => true) 0 chunks := by
  rw [keptEntries, wanted_false_eq, List.filter_true]

/-- What reading to the end leaves of a reader that was given a scan. -/
structure ReadOut (op : ManifestFormat α) (r : ManifestReader) (scan : AvroScan)
    (r' : ManifestReader) : Prop where
  exhausted : r'.Exhausted
  readerOf : r'.ReaderOf op
  skip_eq : r'.skipDeleted = r.skipDeleted
  types_eq : r'.chunk.types = r.layout scan

theorem ReadOut.scan_ne_none {r r' : ManifestReader} {scan : AvroScan} (h : ReadOut op r scan r') :
    r'.scan.isNone = false := by
  obtain ⟨-, -, s, hs, -⟩ := h.exhausted
  rw [hs]
  rfl

/-- A reader that is given a readable scan reads it to its end. -/
theorem readAll_of_readable {r : ManifestReader} (hr : r.ReaderOf op) {scan : AvroScan}
    {chunks : List (List α)} (h : Readable op (r.layout scan) scan chunks) (acc : List α) :
    ∃ r₁ r₂, r.initializeWith scan = (.ok (), r₁) ∧
      readAll op r₁ acc = (.ok (), r₂, acc ++ keptEntries op r.skipDeleted chunks) ∧
      ReadOut op r scan r₂ := by
  obtain ⟨r₁, hinstall, hfresh, hof, hskip⟩ := initializeWith_spec op hr h
  have hat : r₁.At op [] (chunks.map .rows ++ []) :=
    ⟨hfresh.reading, hfresh.current_eq, by rw [hfresh.ahead_eq, List.append_nil]⟩
  obtain ⟨r₂, hread, hstopped, hsame⟩ := readAll_spec op stopsAt_nil hat acc
  rw [hskip] at hread
  exact ⟨r₁, r₂, hinstall, hread, hstopped, hof.same hsame, hsame.skipDeleted.trans hskip,
    hsame.types.trans hfresh.types_eq⟩

/-- After `Initialize` the cursor is at the head of the scan. -/
theorem initializeWith_at {r r₁ : ManifestReader} (hr : r.ReaderOf op) {scan : AvroScan}
    (hs : scan.finished = false) (hinstall : r.initializeWith scan = (.ok (), r₁)) :
    (populate op.populateNameMapping scan.columns.zipIdx .empty).1 = .ok () ∧
      op.verifySchema (nameMap op scan) = true ∧
      r₁.At op [] (scan.stream.map (piece op (nameMap op scan) (r.layout scan))) := by
  rw [initializeWith, hr.nameMapping, hr.schemaValidation] at hinstall
  rcases hp : populate op.populateNameMapping scan.columns.zipIdx .empty with ⟨e | u, m⟩
  · rw [hp] at hinstall
    cases hinstall
  have hm : nameMap op scan = m := by rw [nameMap, hp]
  rw [hp] at hinstall
  by_cases hv : op.verifySchema m = true
  · simp only [if_pos hv, Prod.mk.injEq, true_and] at hinstall
    have hused : r₁.chunk.size ≤ r₁.offset := by
      rw [← hinstall]
      show (r.install scan).chunk.size ≤ _
      rw [install_chunk]
      exact Nat.zero_le _
    obtain ⟨hcur, hahead⟩ := view_used_up op hused
    refine ⟨rfl, by rw [hm]; exact hv, by rw [← hinstall]; exact ⟨rfl, scan, rfl, hs⟩, hcur, ?_⟩
    rw [hahead, pieces, hm, ← hinstall]
    show List.map (piece op m (r.install scan).chunk.types) _ = _
    rw [install_chunk]
    rfl
  · simp only [if_neg hv, Prod.mk.injEq, reduceCtorEq, false_and] at hinstall

/-- The loop that reads to the end comes to an end. -/
theorem readAll_returns {r : ManifestReader} {ps : List (Piece α Error)} (hr : r.At op [] ps)
    (acc : List α) : ∃ out, Loop.run (readAllRound op) r.readFuel (r, acc) = some out := by
  obtain ⟨ls, tail, rfl, htail⟩ := rows_then_stop ps
  rcases htail with rfl | ⟨e, post, rfl⟩ | ⟨e, post, rfl⟩
  · obtain ⟨r', h, -⟩ := readAll_at op stopsAt_nil hr acc
    exact ⟨_, h⟩
  · obtain ⟨r', h, -⟩ := readAll_at op (stopsAt_fails e post) hr acc
    exact ⟨_, h⟩
  · obtain ⟨r', h, -⟩ := readAll_at op (stopsAt_stuck e post) hr acc
    exact ⟨_, h⟩

/-- A scan that a reader reads to its end is readable. -/
theorem readable_of_readAll {r r₁ r₂ : ManifestReader} (hr : r.ReaderOf op) {scan : AvroScan}
    {acc acc' : List α} (hs : scan.finished = false)
    (hinstall : r.initializeWith scan = (.ok (), r₁))
    (hall : readAll op r₁ acc = (.ok (), r₂, acc')) :
    ∃ chunks, Readable op (r.layout scan) scan chunks := by
  obtain ⟨hpop, hval, hat⟩ := initializeWith_at hr hs hinstall
  obtain ⟨ls, tail, hls, htail⟩ :=
    rows_then_stop (scan.stream.map (piece op (nameMap op scan) (r.layout scan)))
  rw [hls] at hat
  -- the loop throws what the first delivery that is not rows throws
  rcases htail with rfl | ⟨e, post, rfl⟩ | ⟨e, post, rfl⟩
  · exact ⟨ls, hpop, hval, hs, by rw [hls, List.append_nil]⟩
  · obtain ⟨r', hthrow, -⟩ := readAll_spec op (stopsAt_fails e post) hat acc
    rw [hthrow] at hall
    cases hall
  · obtain ⟨r', hthrow, -⟩ := readAll_spec op (stopsAt_stuck e post) hat acc
    rw [hthrow] at hall
    cases hall

/-- The file under this path, read to its end by the reader `r`, appended to `acc`. -/
def scanInto (ctx : ClientContext) (path : String) (options : IcebergOptions)
    (op : ManifestFormat α) (r : ManifestReader) (file : String) (acc : List α) :
    Except Error Unit × ManifestReader × List α :=
  match openAvro ctx path options file with
  | .error e => (.error e, r, acc)
  | .ok scan =>
    match r.initializeWith scan with
    | (.error e, r) => (.error e, r, acc)
    | (.ok _, r) => readAll op r acc

variable {ctx : ClientContext} {path : String} {options : IcebergOptions} {file : String}

theorem scanInto_of_readable {r : ManifestReader} (hr : r.ReaderOf op) {scan : AvroScan}
    (hopen : openAvro ctx path options file = .ok scan) {chunks : List (List α)}
    (h : Readable op (r.layout scan) scan chunks) (acc : List α) :
    ∃ r', scanInto ctx path options op r file acc =
        (.ok (), r', acc ++ keptEntries op r.skipDeleted chunks) ∧ ReadOut op r scan r' := by
  obtain ⟨r₁, r₂, hinstall, hall, hout⟩ := readAll_of_readable hr h acc
  exact ⟨r₂, by rw [scanInto, hopen]; simp only [hinstall, hall], hout⟩

/-- A file that is read to its end without an exception is readable. -/
theorem readable_of_scanInto {r r' : ManifestReader} (hr : r.ReaderOf op) {acc acc' : List α}
    (h : scanInto ctx path options op r file acc = (.ok (), r', acc')) :
    ∃ scan chunks, openAvro ctx path options file = .ok scan ∧
      Readable op (r.layout scan) scan chunks ∧
      acc' = acc ++ keptEntries op r.skipDeleted chunks ∧ ReadOut op r scan r' := by
  have hread : ∃ scan chunks, openAvro ctx path options file = .ok scan ∧
      Readable op (r.layout scan) scan chunks := by
    unfold scanInto at h
    cases hopen : openAvro ctx path options file with
    | error e => simp [hopen] at h
    | ok scan =>
      simp only [hopen] at h
      rcases hinstall : r.initializeWith scan with ⟨e | u, r₁⟩
      · simp [hinstall] at h
      · simp only [hinstall] at h
        obtain ⟨chunks, hread⟩ := readable_of_readAll hr (openAvro_unread hopen) hinstall h
        exact ⟨scan, chunks, rfl, hread⟩
  obtain ⟨scan, chunks, hopen, hread⟩ := hread
  obtain ⟨r'', hscan, hout⟩ := scanInto_of_readable hr hopen hread acc
  rw [h] at hscan
  obtain ⟨-, rfl, rfl⟩ := Prod.mk.injEq .. ▸ hscan
  exact ⟨scan, chunks, hopen, hread, rfl, hout⟩

end ManifestReader

end DuckIceberg
