import DuckIceberg.ManifestFile

/-!
# The manifest reader as a cursor

Whether the entries a reader delivers are those of the file it was given: within one file,
whatever the counts asked for, and when one reader goes through several files.
-/

namespace DuckIceberg

open Strings Stride

namespace ManifestReader

section Cursor

variable {α : Type} (op : ManifestFormat α)

/-! ### One file -/

/-- The calls append exactly the wanted entries of the file, in order, and offer exactly its
rows. -/
structure ExactCursor (counts : List ℕ) (r : ManifestReader) (chunks : List (List α)) : Prop where
  returns : (readSeq (appendTo op) counts r []).1 = .ok ()
  entries : (readSeq (appendTo op) counts r []).2.2 =
    chunks.flatten.filter (op.wanted r.skipDeleted)
  rows : (readSeq (offeredTo op) counts r []).2.2 = chunks.flatten

/-- A reader made for `op`, with this `skip_deleted`, that was given the scan. -/
def makeFor (skip : Bool) (scan : AvroScan) : Outcome ManifestReader Unit :=
  initializeWith { make op with skipDeleted := skip } scan

variable {op} in
/-- A fresh reader stands at the head of its first file. -/
theorem makeFor_spec {scan : AvroScan} {chunks : List (List α)}
    (h : Readable op scan.returnTypes scan chunks) (skip : Bool) :
    ∃ r, makeFor op skip scan = (.ok (), r) ∧ r.Ready op ∧ r.skipDeleted = skip ∧
      r.rest op = chunks.flatten := by
  obtain ⟨r, hr, hfresh, -, hskip⟩ :=
    initializeWith_spec op (r := { make op with skipDeleted := skip }) ⟨rfl, rfl⟩ h
  refine ⟨r, hr, ⟨Or.inl hfresh.reading, chunks, hfresh.ahead_eq⟩, hskip, ?_⟩
  rw [rest, hfresh.current_eq, hfresh.ahead_eq, List.nil_append, rowsOf_map_rows]

theorem rest_of_finished {r : ManifestReader} (hr : r.Ready op) (hf : r.isFinished = true) :
    r.rest op = [] := by
  rcases hr.reading_or with h | h
  · rw [isFinished_of_reading h] at hf
    cases hf
  · obtain ⟨hcur, hahead⟩ := view_exhausted op h
    rw [rest, hcur, hahead]
    rfl

/-- **Main result.** When a file has been read to its end, the calls were an exact cursor if each
found a cursor that does not wrap around and spared the rows it did not offer; as long as no
cursor wraps around, they were not if one did not. -/
theorem makeFor_exactCursor {scan : AvroScan} {chunks : List (List α)}
    (h : Readable op scan.returnTypes scan chunks) (skip : Bool) (counts : List ℕ)
    (hfin : (readSeq (appendTo op) counts (makeFor op skip scan).2 []).2.1.isFinished = true) :
    (EachCall op (fun count r => r.NoWrap count ∧ SparesAll op count r) counts
        (makeFor op skip scan).2 →
      ExactCursor op counts (makeFor op skip scan).2 chunks) ∧
    (EachCall op (fun count r => r.NoWrap count) counts (makeFor op skip scan).2 →
      ExactCursor op counts (makeFor op skip scan).2 chunks →
      EachCall op (SparesAll op) counts (makeFor op skip scan).2) := by
  obtain ⟨r, hmake, hready, hskip, hrest⟩ := makeFor_spec h skip
  rw [hmake] at hfin ⊢
  simp only at hfin ⊢
  have hiff : EachCall op (fun count r => r.NoWrap count) counts r →
      (ExactCursor op counts r chunks ↔ EachCall op (SparesAll op) counts r) := by
    intro hn
    obtain ⟨r', offered, hready', -, hspares, hcall⟩ := readSeq_spec op hready hskip counts hn
    have happend := hcall _ _ (appendTo_rowWise op skip) []
    have hoffer := hcall _ _ (offeredTo_rowWise op skip) []
    have hdone : r'.rest op = [] := by
      rw [happend] at hfin
      exact rest_of_finished op hready' hfin
    rw [← hspares, hdone, List.append_nil, hrest]
    constructor
    · intro hexact
      have := hexact.rows
      rw [hoffer] at this
      exact this
    · rintro rfl
      refine ⟨by rw [happend], ?_, by rw [hoffer]; rfl⟩
      rw [happend, hskip]
      rfl
  refine ⟨fun heach => ?_, fun hn => (hiff hn).1⟩
  obtain ⟨hn, hs⟩ := eachCall_and op heach
  exact (hiff hn).2 hs

/-- The same for a manifest of four entries, read one entry at a time. -/
theorem makeFor_exactCursor_four :
    let chunks : List (List IcebergManifestEntry) :=
      [[.ofPath .deleted "d", .ofPath .added "a"], [.ofPath .existing "b", .ofPath .added "c"]]
    let r := (makeFor icebergManifestEntryV2 true (entryScan [] chunks)).2
    (EachCall icebergManifestEntryV2
        (fun count r => r.NoWrap count ∧ SparesAll icebergManifestEntryV2 count r) [1, 1, 1, 1] r →
      ExactCursor icebergManifestEntryV2 [1, 1, 1, 1] r chunks) ∧
    (EachCall icebergManifestEntryV2 (fun count r => r.NoWrap count) [1, 1, 1, 1] r →
      ExactCursor icebergManifestEntryV2 [1, 1, 1, 1] r chunks →
      EachCall icebergManifestEntryV2 (SparesAll icebergManifestEntryV2) [1, 1, 1, 1] r) :=
  makeFor_exactCursor icebergManifestEntryV2
    (entryScan_readable apart_nil (by decide) (by decide)) true [1, 1, 1, 1] (by decide +kernel)

/-- A call that goes round twice loses rows: after the deleted entry and `a` the second round is
offered only `b`, and the cursor passes over `c`. -/
theorem not_exactCursor_deleted_first :
    let chunks : List (List IcebergManifestEntry) :=
      [[.ofPath .deleted "d", .ofPath .added "a", .ofPath .added "b", .ofPath .added "c"]]
    let scan := entryScan [] chunks
    let r := (makeFor icebergManifestEntryV2 true scan).2
    Readable icebergManifestEntryV2 scan.returnTypes scan chunks ∧
      (readSeq (appendTo icebergManifestEntryV2) [2, 1] r []).2.1.isFinished = true ∧
      ¬ ExactCursor icebergManifestEntryV2 [2, 1] r chunks := by
  refine ⟨entryScan_readable apart_nil (by decide) (by decide), by decide +kernel, ?_⟩
  intro h
  exact absurd h.entries (by decide +kernel)

/-! ### Several files -/

/-- What is done with a reader. -/
inductive Use : Type 1
  | install (scan : AvroScan)
  | read {σ : Type} (count : ℕ) (callback : Callback σ) (acc : σ)

/-- The reader afterwards, whether the call throws or not. -/
def use (r : ManifestReader) : Use → ManifestReader
  | .install scan => (r.initializeWith scan).2
  | .read count callback acc => (r.readEntries count callback acc).2.1

/-- The column types of the first file installed. -/
def firstTypes : List Use → Option (List LogicalType)
  | [] => none
  | .install scan :: _ => some scan.returnTypes
  | .read .. :: history => firstTypes history

/-- Reads from `r` do what reads from a fresh reader do, and whenever the chunk is filled it has
the column types of the scan. -/
structure LikeFresh (r fresh : Outcome ManifestReader Unit) (scan : AvroScan) : Prop where
  installs : r.1 = fresh.1
  reads : ∀ (σ : Type) (callback : Callback σ) (counts : List ℕ) (acc : σ),
    (readSeq callback counts r.2 acc).1 = (readSeq callback counts fresh.2 acc).1 ∧
      (readSeq callback counts r.2 acc).2.2 = (readSeq callback counts fresh.2 acc).2.2
  layout : ∀ (σ : Type) (callback : Callback σ) (counts : List ℕ) (acc : σ),
    0 < (readSeq callback counts r.2 acc).2.1.chunk.size →
      (readSeq callback counts r.2 acc).2.1.chunk.types = scan.returnTypes

/-- What a history leaves of a reader: the functions it was made with, and the layout of the
first file. -/
theorem uses_spec (history : List Use) (r : ManifestReader) :
    let r' := history.foldl use r
    r'.nameMapping = r.nameMapping ∧ r'.schemaValidation = r.schemaValidation ∧
      r'.skipDeleted = r.skipDeleted ∧
      ∀ scan, r'.layout scan =
        if r.scan.isNone then (firstTypes history).getD scan.returnTypes else r.chunk.types := by
  induction history generalizing r with
  | nil =>
    refine ⟨rfl, rfl, rfl, fun scan => ?_⟩
    simp [layout, firstTypes]
  | cons u history ih =>
    obtain ⟨h1, h2, h3, h4⟩ := ih (use r u)
    rw [List.foldl_cons]
    cases u with
    | install scan =>
      obtain ⟨hchunk, hscan, -, hmap, hval, hskip⟩ := initializeWith_types r scan
      refine ⟨h1.trans hmap, h2.trans hval, h3.trans hskip, fun scan' => ?_⟩
      rw [h4 scan', use, hscan, if_neg (by simp), hchunk]
      rfl
    | read count callback acc =>
      have hsame := readEntries_same r count callback acc
      refine ⟨h1.trans hsame.nameMapping, h2.trans hsame.schemaValidation,
        h3.trans hsame.skipDeleted, fun scan => ?_⟩
      have hnone : (use r (.read count callback acc)).scan.isNone = r.scan.isNone := by
        have := congrArg Option.isNone hsame.columns
        rwa [Option.isNone_map, Option.isNone_map] at this
      rw [h4 scan, hnone, firstTypes, use, hsame.types]

/-- A reader is determined by its layout and the functions it was made with, once it has been
given a scan. -/
theorem initializeWith_congr {r r' : ManifestReader} {scan : AvroScan}
    (hmap : r.nameMapping = r'.nameMapping) (hval : r.schemaValidation = r'.schemaValidation)
    (hskip : r.skipDeleted = r'.skipDeleted) (hlayout : r.layout scan = r'.layout scan) :
    r.initializeWith scan = r'.initializeWith scan := by
  have hchunk : (r.install scan).chunk = (r'.install scan).chunk := by
    rw [install_chunk, install_chunk, hlayout]
  have hinstall : r.install scan = r'.install scan := by
    simp only [install] at hchunk ⊢
    rw [hmap, hval, hskip, hchunk]
  unfold initializeWith
  rw [hmap, hval, hinstall]

/-- A first delivery is what fills the chunk. -/
theorem readEntries_fills {r : ManifestReader} {scan : AvroScan} {f : Fetch} {fs : List Fetch}
    {b : Batch} (hf : f (r.layout scan) = .ok b) (hs : scan.stream = f :: fs) :
    let r' := (readSeq (fun _ _ _ _ _ => .error ⟨.internal, ""⟩ : Callback Unit) [1]
      (r.initializeWith scan).2 ()).2.1
    0 < r'.chunk.size ∧ r'.chunk.types = r.layout scan := by
  obtain ⟨hchunk, hscan, hfin, -⟩ := initializeWith_types r scan
  generalize r.initializeWith scan = out at hchunk hscan hfin
  obtain ⟨res, r'⟩ := out
  simp only at hchunk hscan hfin ⊢
  have hrefill : r'.refill = (.ok true,
      { r' with
        scan := some { scan with stream := fs }
        chunk := r'.chunk.fill b
        offset := 0 }) := by
    rw [refill, if_pos (by rw [hchunk]; exact Nat.zero_le _), hscan]
    simp [AvroScan.getNext, hs, hchunk, hf, b.size_pos.ne']
  have hround : readRound 1 (fun _ _ _ _ _ => .error ⟨.internal, ""⟩ : Callback Unit)
      ⟨r', 0, ()⟩ = .done (.error ⟨.internal, ""⟩, r'.refill.2, ()) := by
    rw [readRound, if_pos Nat.one_pos, hrefill]
  have hrun : Loop.run (readRound 1 (fun _ _ _ _ _ => .error ⟨.internal, ""⟩ : Callback Unit))
      r'.readFuel ⟨r', 0, ()⟩ = some (.error ⟨.internal, ""⟩, r'.refill.2, ()) := by
    rw [readFuel, hscan]
    exact Loop.run_succ_done hround _
  rw [readSeq, readEntries, if_neg (by simp [hscan, hfin]), hrun, hrefill]
  exact ⟨b.size_pos, by simp [hchunk]⟩

/-- **Main result.** A reader that has gone through any files is like a fresh one when the first
of them had the column types of the last; when the last file fills the chunk, it is not like a
fresh one otherwise. -/
theorem initializeWith_likeFresh (skip : Bool) (history : List Use) (scan : AvroScan) :
    let r := history.foldl use { make op with skipDeleted := skip }
    let types := (firstTypes history).getD scan.returnTypes
    (types = scan.returnTypes →
      LikeFresh (r.initializeWith scan) (makeFor op skip scan) scan) ∧
    ((∃ f fs b, scan.stream = f :: fs ∧ f types = .ok b) →
      LikeFresh (r.initializeWith scan) (makeFor op skip scan) scan →
      types = scan.returnTypes) := by
  intro r types
  obtain ⟨hmap, hval, hskip, hlayout⟩ := uses_spec history { make op with skipDeleted := skip }
  have htypes : r.layout scan = types := hlayout scan
  constructor
  · intro h
    have heq : r.initializeWith scan = makeFor op skip scan :=
      initializeWith_congr hmap hval hskip (htypes.trans h)
    refine ⟨by rw [heq], fun σ callback counts acc => by rw [heq]; exact ⟨rfl, rfl⟩, ?_⟩
    intro σ callback counts acc _
    rw [(readSeq_same callback counts _ acc).types, (initializeWith_types r scan).1]
    exact htypes.trans h
  · rintro ⟨f, fs, b, hs, hf⟩ h
    rw [← htypes] at hf ⊢
    obtain ⟨hsize, hlast⟩ := readEntries_fills hf hs
    rw [← hlast]
    exact h.layout _ _ _ _ hsize

/-- The same after a file that was left half read. -/
theorem initializeWith_likeFresh_half_read :
    let first := entryScan [] [[.ofPath .added "a", .ofPath .added "b"]]
    let scan := entryScan [] [[.ofPath .added "c"]]
    let history : List Use := [.install first, .read 1 (appendTo icebergManifestEntryV2) []]
    LikeFresh ((history.foldl use { make icebergManifestEntryV2 with skipDeleted := true
      }).initializeWith scan) (makeFor icebergManifestEntryV2 true scan) scan :=
  (initializeWith_likeFresh icebergManifestEntryV2 true _ _).1 rfl

/-- After a manifest of an unpartitioned table, a manifest of the table once it is partitioned is
not read as a fresh reader reads it. -/
theorem not_likeFresh_partitioned :
    let first := entryScan [] [[.ofPath .added "a"]]
    let scan := entryScan [partitionColumn] [[.ofPath .added "b"]]
    Readable icebergManifestEntryV2 scan.returnTypes scan [[.ofPath .added "b"]] ∧
      ¬ LikeFresh ((use (make icebergManifestEntryV2) (.install first)).initializeWith scan)
        (makeFor icebergManifestEntryV2 false scan) scan := by
  refine ⟨entryScan_readable apart_partition (by decide) (by decide), ?_⟩
  intro h
  exact absurd (h.reads _ (appendTo icebergManifestEntryV2) [1] []).2 (by decide +kernel)

end Cursor

end ManifestReader

end DuckIceberg
