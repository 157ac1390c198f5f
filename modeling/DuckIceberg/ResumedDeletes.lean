import DuckIceberg.CollectDeletes

/-!
# Delete manifests after an exception

The loop of `ProcessDeletes` may throw in the middle of a delete manifest, and a later call goes on
where it was.

* `Standing.readEntries`: reading leaves the reader where it can go on;
* `collect_halts`: from wherever it is left, the rounds that are allowed are enough.
-/

namespace DuckIceberg

open Strings Stride ManifestReader

namespace IcebergMultiFileList

variable {ctx : ClientContext} {op : ManifestFormat IcebergManifestEntry} {r : ManifestReader}
  {l : IcebergMultiFileList}

/-- Where a reader can be: between two manifests, or in one and at the head of a chunk. -/
structure Standing (op : ManifestFormat IcebergManifestEntry) (r : ManifestReader) : Prop where
  readerOf : r.ReaderOf op
  reading : r.isFinished = false → r.Reading ∧ r.current op = []

/-- The reader of the delete manifests can go on. -/
def Resumable (l : IcebergMultiFileList) : Prop :=
  ∀ op r, l.entryProducer = some op → l.deleteManifestEntryReader = some r → Standing op r

theorem resumable_of_standing (op : ManifestFormat IcebergManifestEntry) (r : ManifestReader)
    (hp : l.entryProducer = some op)
    (hr : l.deleteManifestEntryReader = some r) (h : Standing op r) : Resumable l := by
  intro op' r' hp' hr'
  obtain rfl : op = op' := Option.some.inj (hp.symm.trans hp')
  obtain rfl : r = r' := Option.some.inj (hr.symm.trans hr')
  exact h

theorem standing_make (op : ManifestFormat IcebergManifestEntry) :
    Standing op { make op with skipDeleted := true } :=
  ⟨⟨rfl, rfl⟩, nofun⟩

/-- A reader that is given a scan is in it, whether `Initialize` throws or not. -/
theorem standing_initializeWith (hr : r.ReaderOf op) {scan : AvroScan}
    (hs : scan.finished = false) : Standing op (r.initializeWith scan).2 := by
  obtain ⟨hchunk, hscan, hfinished, hmapping, hvalidation, -⟩ := initializeWith_types r scan
  refine ⟨⟨hmapping.trans hr.nameMapping, hvalidation.trans hr.schemaValidation⟩,
    fun _ => ⟨⟨hfinished, scan, hscan, hs⟩, ?_⟩⟩
  refine (view_used_up op ?_).1
  rw [hchunk]
  exact Nat.zero_le _

/-- No delivery ahead has more rows than a chunk has room for. -/
theorem length_of_mem_ahead {es : List IcebergManifestEntry} (h : Piece.rows es ∈ r.ahead op) :
    es.length ≤ standardVectorSize := by
  have hpieces : Piece.rows es ∈ r.pieces op ((r.scan.map AvroScan.stream).getD []) := by
    unfold ahead at h
    split at h
    · exact h
    · simpa using h
  obtain ⟨f, -, hf⟩ := List.mem_map.1 hpieces
  exact piece_length op hf

/-- Reading leaves a reader in its manifest or at the end of it. -/
theorem Standing.readEntries (h : Standing op r) (hf : r.isFinished = false)
    (acc : List IcebergManifestEntry) :
    Standing op (r.readEntries standardVectorSize (appendTo op) acc).2.1 := by
  have hsame := readEntries_same r standardVectorSize (appendTo op) acc
  obtain ⟨hreading, hcurrent⟩ := h.reading hf
  obtain ⟨-, -, hstop⟩ := readEntries_spec op (appendTo_rowWise op r.skipDeleted) hreading rfl
    (r.noWrap_of_le (by decide : standardVectorSize ≤ 2 ^ 63)) acc
  have hnil : (pull standardVectorSize (op.wanted r.skipDeleted) 0 [] (r.ahead op)).current = [] :=
    pull_current_eq_nil _ standardVectorSize_pos fun _ => length_of_mem_ahead
  dsimp only at hstop
  rw [hcurrent] at hstop
  refine ⟨h.readerOf.same hsame, fun hf' => ?_⟩
  split at hstop
  · exact ⟨hstop.2.reading, hstop.2.current_eq.trans hnil⟩
  · -- a reader at the end of its manifest has finished
    rw [isFinished_of_exhausted hstop.2] at hf'
    cases hf'
  · exact ⟨hstop.2.reading, hstop.2.current_eq.trans hnil⟩

/-! ### The loop comes to an end -/

/-- The rounds that the loop of `ProcessDeletes` is allowed. -/
def collectFuel (ctx : ClientContext) (l : IcebergMultiFileList) : ℕ :=
  (l.deleteManifestEntryReader.elim 0 readFuel) +
    ((l.deleteManifests.drop l.currentDeleteManifest).map (manifestRounds ctx l)).sum + 1

/-- A reader that is read to its end has finished. -/
theorem readAllRound_finished {n : ℕ} {r r' : ManifestReader}
    {acc acc' : List IcebergManifestEntry} (hr : r.ReaderOf op)
    (h : Loop.run (readAllRound op) n (r, acc) = some (.ok (), r', acc')) :
    r'.ReaderOf op ∧ r'.isFinished = true := by
  refine Loop.run_elim (fun st => st.1.ReaderOf op)
    (fun _ out => out.1 = .ok () → out.2.1.ReaderOf op ∧ out.2.1.isFinished = true)
    ?_ ?_ hr h rfl
  · rintro ⟨r₁, acc₁⟩ out hof hb hok
    unfold readAllRound at hb
    split_ifs at hb with hf
    · cases hb
      exact ⟨hof, hf⟩
    · rcases hread : r₁.readEntries standardVectorSize (appendTo op) acc₁ with ⟨e | n, st'⟩
      · simp only [hread] at hb
        cases hb
        cases hok
      · simp only [hread] at hb
        cases hb
  · rintro ⟨r₁, acc₁⟩ st' hof hb
    refine ⟨?_, fun _ => id⟩
    unfold readAllRound at hb
    have hsame := readEntries_same r₁ standardVectorSize (appendTo op) acc₁
    split_ifs at hb with hf
    rcases hread : r₁.readEntries standardVectorSize (appendTo op) acc₁ with ⟨e | n, st''⟩
    · simp only [hread] at hb
      cases hb
    · simp only [hread] at hb hsame
      cases hb
      exact hof.same hsame

variable (ctx) in
/-- A call that finds the reader in a manifest reads that first. -/
theorem run_collect_reading (hp : l.entryProducer = some op)
    (hreader : l.deleteManifestEntryReader = some r) (hstand : Standing op r)
    (hf : r.isFinished = false) {m : IcebergManifest}
    (hm : l.deleteManifests[l.currentDeleteManifest]? = some m) (acc : List IcebergManifestEntry) :
    Loop.run (collectRound ctx) (collectFuel ctx l) (l, acc) =
      match readAll op r acc with
      | (.error e, r', acc') => some (.error e, l.withCursor r' l.currentDeleteManifest, acc')
      | (.ok _, r', acc') =>
        match collectFrom ctx l.path l.options op
            (l.deleteManifests.drop (l.currentDeleteManifest + 1)) r' acc' with
        | (res, r'', acc'', n) =>
          some (res, l.withCursor r'' (l.currentDeleteManifest + 1 + n), acc'') := by
  obtain ⟨hreading, hcurrent⟩ := hstand.reading hf
  have hat : r.At op [] (r.ahead op) := ⟨hreading, hcurrent, rfl⟩
  obtain ⟨out, hout⟩ := readAll_returns hat acc
  obtain ⟨j, hj, hrun⟩ := run_collect_readAll hp hm hf hout
  have hdrop := List.drop_eq_getElem_cons (List.getElem?_eq_some_iff.1 hm).1
  have hfuel : collectFuel ctx l = r.readFuel +
      ((l.deleteManifests.drop l.currentDeleteManifest).map (manifestRounds ctx l)).sum + 1 := by
    rw [collectFuel, hreader]
    rfl
  rw [hdrop, List.map_cons, List.sum_cons] at hfuel
  have hgo := hrun (collectFuel ctx l - j)
  rw [withCursor_self hreader, show j + (collectFuel ctx l - j) = collectFuel ctx l by omega] at hgo
  have hread : readAll op r acc = out := by
    rw [readAll, hout]
    rfl
  rw [hgo, hread]
  obtain ⟨e | u, r', acc'⟩ := out
  · rfl
  · obtain ⟨hof, hfinished⟩ := readAllRound_finished hstand.readerOf hout
    exact run_collect ctx hp acc' hof hfinished rfl (by omega)

variable (ctx) in
/-- **The loop of `ProcessDeletes` comes to an end**, wherever the last exception has left the
reader. -/
theorem collect_halts (h : Resumable l) (acc : List IcebergManifestEntry) :
    ∃ out, Loop.run (collectRound ctx) (collectFuel ctx l) (l, acc) = some out := by
  have hone : ∀ out, collectRound ctx (l, acc) = .done out →
      ∃ out, Loop.run (collectRound ctx) (collectFuel ctx l) (l, acc) = some out :=
    fun _ hdone => ⟨_, Loop.run_succ_done hdone _⟩
  cases hm : l.deleteManifests[l.currentDeleteManifest]? with
  | none =>
    -- all delete manifests have been read
    refine hone (.ok (), l, acc) ?_
    simp only [collectRound, hm]
  | some manifest =>
    cases hr : l.deleteManifestEntryReader with
    | none =>
      refine hone (.error nullPointer, l, acc) ?_
      simp only [collectRound, hm, hr]
    | some r =>
      cases hp : l.entryProducer with
      | none =>
        refine hone (.error nullPointer, l, acc) ?_
        simp only [collectRound, hm, hr, hp]
      | some op =>
        have hstand := h op r hp hr
        have hcursor := withCursor_self hr
        have hfuel : collectFuel ctx l = r.readFuel +
            ((l.deleteManifests.drop l.currentDeleteManifest).map (manifestRounds ctx l)).sum + 1 := by
          rw [collectFuel, hr]
          rfl
        by_cases hf : r.isFinished = true
        · -- the reader is between two manifests
          have hrun := run_collect ctx (k := l.currentDeleteManifest) hp acc hstand.readerOf hf rfl
            (show _ < collectFuel ctx l by omega)
          rw [hcursor] at hrun
          exact ⟨_, hrun⟩
        · -- the manifest at hand is read to its end, and then the others are
          rw [run_collect_reading ctx hp hr hstand (by simpa using hf) hm acc]
          rcases readAll op r acc with ⟨e | u, r', acc'⟩
          · exact ⟨_, rfl⟩
          · exact ⟨_, rfl⟩

end IcebergMultiFileList

end DuckIceberg
