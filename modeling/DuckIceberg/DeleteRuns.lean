import DuckIceberg.DeleteManifests
import DuckIceberg.DeleteSources
import DuckIceberg.StableFiles

/-!
# Chunks and exceptions

Runs in which chunks are finalised while files come and go: `ProcessDeletes` may throw in any of them,
and a later chunk goes on where it was left.

* `processDeletes_progress`: a call that loses no entry keeps what is ahead and what has been read
  together complete;
* `chunks_complete`: so where no call loses an entry, no chunk is returned before all deletes are there.
-/

namespace DuckIceberg

open Strings Stride ManifestReader

namespace IcebergMultiFileList

variable {ctx c : ClientContext} {path : String} {options : IcebergOptions} {l l' : IcebergMultiFileList}

/-! ### The other calls -/

/-- The lists differ at most in their data files and in how far the data manifests were read. -/
def DataMoved (l l' : IcebergMultiFileList) : Prop :=
  ∃ reader files k, l' = { l with
    dataManifestEntryReader := reader, dataFiles := files, currentDataManifest := k }

theorem DataMoved.refl (l : IcebergMultiFileList) : DataMoved l l := ⟨_, _, _, rfl⟩

theorem DataMoved.trans {l₁ l₂ l₃ : IcebergMultiFileList} (h : DataMoved l₁ l₂)
    (h' : DataMoved l₂ l₃) : DataMoved l₁ l₃ := by
  obtain ⟨r, f, k, rfl⟩ := h
  obtain ⟨r', f', k', rfl⟩ := h'
  exact ⟨r', f', k', rfl⟩

theorem readDataFiles_dataMoved (fileId : ℕ) (op : ManifestFormat IcebergManifestEntry)
    (r : ManifestReader) (l : IcebergMultiFileList) :
    (readDataFiles fileId op r l).Holds (DataMoved l) fun out => DataMoved l out.2 := by
  unfold readDataFiles
  dsimp only
  generalize r.readEntries _ (appendTo op) l.dataFiles = out
  obtain ⟨e | n, r', files⟩ := out
  · exact ⟨_, _, _, rfl⟩
  · exact ⟨_, _, _, rfl⟩

theorem getFileRound_dataMoved (ctx : ClientContext) (fileId : ℕ) (l : IcebergMultiFileList) :
    (getFileRound ctx fileId l).Holds (DataMoved l) fun out => DataMoved l out.2 := by
  unfold getFileRound
  split_ifs
  · exact .refl l
  split
  · split_ifs
    · split
      · exact .refl l
      · split
        · exact .refl l
        · split
          · exact ⟨_, _, _, rfl⟩
          · exact readDataFiles_dataMoved _ _ _ l
    · exact readDataFiles_dataMoved _ _ _ l
  · exact .refl l

theorem expand_dataMoved (ctx : ClientContext) (fileId : ℕ) (l : IcebergMultiFileList) :
    DataMoved l (expand ctx fileId l).2 := by
  have hround : ∀ s, DataMoved l s →
      (getFileRound ctx fileId s).Holds (DataMoved l) fun out => DataMoved l out.2 := by
    intro s hs
    have hmoved := getFileRound_dataMoved ctx fileId s
    generalize getFileRound ctx fileId s = x at hmoved ⊢
    cases x with
    | next s' => exact hs.trans hmoved
    | done out => exact hs.trans hmoved
  unfold expand
  cases hrun : Loop.run (getFileRound ctx fileId) _ l with
  | none => exact .refl l
  | some out => exact Loop.run_holds hround (.refl l) hrun

theorem getFile_dataMoved (ctx : ClientContext) (fileId : ℕ) (hl : l.initialized = true) :
    DataMoved l (getFile ctx fileId l).2 := by
  have hmoved := expand_dataMoved ctx fileId l
  unfold getFile
  rw [initializeFiles_again hl]
  dsimp only
  generalize expand ctx fileId l = out at hmoved ⊢
  obtain ⟨e | u, l'⟩ := out
  · exact hmoved
  · dsimp only
    cases l'.dataFiles[fileId]? <;> exact hmoved

theorem getTotalFileCount_dataMoved (ctx : ClientContext) (hl : l.initialized = true) :
    DataMoved l (getTotalFileCount ctx l).2 := by
  have hround : ∀ st : ℕ × IcebergMultiFileList, DataMoved l st.2 →
      (countRound ctx st).Holds (fun st => DataMoved l st.2) fun out => DataMoved l out.2 := by
    rintro ⟨i, s⟩ hs
    have hs' : s.initialized = true := by
      obtain ⟨_, _, _, rfl⟩ := hs
      exact hl
    have hmoved := getFile_dataMoved ctx i hs'
    unfold countRound
    dsimp only
    generalize getFile ctx i s = out at hmoved ⊢
    obtain ⟨e | file, s'⟩ := out
    · exact hs.trans hmoved
    · dsimp only
      split_ifs
      · exact hs.trans hmoved
      · exact hs.trans hmoved
  unfold getTotalFileCount
  rw [initializeFiles_again hl]
  dsimp only
  cases hrun : Loop.run (countRound ctx) _ (l.dataFiles.length, l) with
  | none => exact .refl l
  | some out => exact Loop.run_holds hround (.refl l) hrun

/-- The public calls leave the deletes of an initialised list as they are. -/
theorem call_dataMoved (ctx : ClientContext) (hl : l.initialized = true) (q : Call) :
    DataMoved l (call ctx l q).2 := by
  have hanswer : ∀ {α : Type} (f : α → Answer) (out : Outcome IcebergMultiFileList α),
      DataMoved l out.2 → DataMoved l (answer f out).2 := by
    intro α f out hout
    rcases out with ⟨e | a, l'⟩ <;> exact hout
  cases q with
  | bind =>
    refine hanswer _ _ ?_
    rw [bind, initializeFiles_again hl]
    exact .refl l
  | getFile i => exact hanswer _ _ (getFile_dataMoved ctx i hl)
  | getExpandResult =>
    refine hanswer _ _ ?_
    have hmoved := getFile_dataMoved ctx 1 hl
    unfold getExpandResult
    generalize getFile ctx 1 l = out at hmoved ⊢
    obtain ⟨e | file, l'⟩ := out <;> exact hmoved
  | getTotalFileCount => exact hanswer _ _ (getTotalFileCount_dataMoved ctx hl)
  | getCardinality =>
    refine hanswer _ _ ?_
    have hmoved := getTotalFileCount_dataMoved ctx hl
    unfold getCardinality
    generalize getTotalFileCount ctx l = out at hmoved ⊢
    obtain ⟨e | n, l'⟩ := out <;> exact hmoved

/-! ### What the snapshot deletes -/

section Runs

variable (t : Recorded ctx path options) (rows : String → List (String × ℤ))

/-- The rows that the live delete files of the snapshot delete, where `rows` are those that are in a
delete file. -/
def Recorded.deleteRows : List (String × ℤ) :=
  (t.live t.deleteManifests).flatMap fun e => rows e.filePath

/-- The session reads what is recorded, as far as it reads it without an exception: files do not
change. -/
structure Sees (c : ClientContext) : Prop where
  manifests : ∀ m ∈ t.keptDeletes, ∀ types chunks,
    Delivered c path options t.entryOp types m chunks → chunks.flatten = (t.entries m).flatten
  deleteFiles : ∀ file pairs, deletePairs c file = .ok pairs → pairs = rows file

/-- The rows are among the deletes. -/
def Stored (l : IcebergMultiFileList) (pairs : List (String × ℤ)) : Prop :=
  ∀ p ∈ pairs, p.2 ∈ invalidRows l.deleteData p.1

/-- The rows of the live delete files in these manifests are among the deletes. -/
def ReadUpTo (l : IcebergMultiFileList) (ms : List IcebergManifest) : Prop :=
  ∀ m ∈ ms, ∀ e ∈ (t.entries m).flatten, e.live = true → Stored l (rows e.filePath)

/-- No entry is lost of what a call has ahead: it reads all of it, passes over no live entry and can
scan every delete file; or it throws at a delivery, no manifest before it has a live entry, and the
live entries of its own manifest come behind it. -/
inductive LosesNothing (c : ClientContext) :
    List (IcebergManifest × List (Piece IcebergManifestEntry Error)) → Prop
  | completes (up : List (IcebergManifest × List (Piece IcebergManifestEntry Error)))
    (h : ∀ s ∈ up, Unbroken s.2 ∧
      (∀ e ∈ lost standardVectorSize IcebergManifestEntry.live 0 (chunksOf s.2), e.live = false) ∧
      ∀ e ∈ rowsOf s.2, e.live = true → CanScan c e) : LosesNothing c up
  | breaksOff (pre post : List (IcebergManifest × List (Piece IcebergManifestEntry Error)))
    (m : IcebergManifest) (chunks : List (List IcebergManifestEntry))
    (tail : List (Piece IcebergManifestEntry Error)) (htail : Breaks tail)
    (hpre : ∀ s ∈ pre, Unbroken s.2 ∧ ∀ e ∈ rowsOf s.2, e.live = false)
    (hahead : ∀ err rest, tail = .fails err :: rest →
      ∀ e ∈ (t.entries m).flatten, e.live = true → e ∈ rowsOf rest) :
    LosesNothing c (pre ++ (m, chunks.map .rows ++ tail) :: post)

/-! ### What is kept -/

/-- The reader stands in front of a delivery that every attempt to read throws at. -/
def Blocked (op : ManifestFormat IcebergManifestEntry) (l : IcebergMultiFileList)
    (r : ManifestReader) : Prop :=
  r.isFinished = false ∧ l.currentDeleteManifest < l.deleteManifests.length ∧
    ∃ e rest, r.ahead op = .stuck e :: rest

/-- Of every live entry the rows are among the deletes, or it is still ahead. -/
structure Covered (l : IcebergMultiFileList) (r : ManifestReader) : Prop where
  passed : ReadUpTo t rows l (t.keptDeletes.take l.currentDeleteManifest)
  ahead : r.isFinished = false → ∀ m, t.keptDeletes[l.currentDeleteManifest]? = some m →
    ∀ e ∈ (t.entries m).flatten, e.live = true → e ∈ rowsOf (r.ahead t.entryOp)

/-- What holds of the list after every step of a run that loses nothing. -/
structure Progress (l : IcebergMultiFileList) : Prop where
  path_eq : l.path = path
  options_eq : l.options = options
  initialized : l.initialized = true
  manifests : l.deleteManifests = t.keptDeletes
  producer : l.entryProducer = some t.entryOp
  reader : ∃ r, l.deleteManifestEntryReader = some r ∧ Waiting t.entryOp r ∧
    (Blocked t.entryOp l r ∨ Covered t rows l r)

variable {t rows}

theorem stored_withDeletes {pairs : List (String × ℤ)} (h : Stored l pairs)
    (added : List (String × ℤ)) : Stored (l.withDeletes added) pairs := by
  intro p hp
  unfold withDeletes
  rw [mem_invalidRows_addRows]
  exact Or.inl (h p hp)

/-- At the end of the manifests, the deletes are complete. -/
theorem Progress.stored (h : Progress t rows l) (hend : l.DeletesProcessed) :
    ReadUpTo t rows l t.keptDeletes := by
  obtain ⟨r, -, -, ⟨-, hlt, -⟩ | hcovered⟩ := h.reader
  · unfold DeletesProcessed at hend
    omega
  · unfold DeletesProcessed at hend
    rw [h.manifests] at hend
    have hpassed := hcovered.passed
    rwa [List.take_of_length_le hend] at hpassed

/-- The data files do not matter. -/
theorem Progress.dataMoved (h : Progress t rows l) (hmoved : DataMoved l l') :
    Progress t rows l' := by
  obtain ⟨reader, files, k, rfl⟩ := hmoved
  obtain ⟨hpath, hoptions, hinit, hmanifests, hproducer, r, hr, hwaiting, hcases⟩ := h
  exact ⟨hpath, hoptions, hinit, hmanifests, hproducer, r, hr, hwaiting,
    hcases.imp id fun hcovered => ⟨hcovered.passed, hcovered.ahead⟩⟩

/-- A call that has all its manifests ahead finds every live entry of them. -/
theorem live_mem_upcoming (hsees : Sees t rows c) (h : Progress t rows l) {r : ManifestReader}
    (hr : Waiting t.entryOp r) (hcovered : Covered t rows l r)
    {s : IcebergManifest × List (Piece IcebergManifestEntry Error)}
    (hs : s ∈ upcoming c t.entryOp r l) (hunbroken : Unbroken s.2) :
    ∀ e ∈ (t.entries s.1).flatten, e.live = true → e ∈ rowsOf s.2 := by
  have hopened : ∀ types, ∀ m ∈ t.keptDeletes,
      Unbroken (openedPieces c l.path l.options t.entryOp types m) →
        ∀ e ∈ (t.entries m).flatten,
          e ∈ rowsOf (openedPieces c l.path l.options t.entryOp types m) := by
    intro types m hm hall e he
    rw [h.path_eq, h.options_eq] at hall ⊢
    rw [hall, rowsOf_map_rows, hsees.manifests m hm types _ (delivered_of_unbroken hall)]
    exact he
  have hsub : ∀ k, ∀ m ∈ l.deleteManifests.drop k, m ∈ t.keptDeletes := by
    intro k m hm
    rw [← h.manifests]
    exact List.mem_of_mem_drop hm
  by_cases hf : r.isFinished = true
  · rw [upcoming_finished hf] at hs
    obtain ⟨m, hm, rfl⟩ := List.mem_map.1 hs
    exact fun e he _ => hopened _ m (hsub _ m hm) hunbroken e he
  have hf : r.isFinished = false := by simpa using hf
  cases hm : l.deleteManifests[l.currentDeleteManifest]? with
  | none =>
    unfold upcoming at hs
    rw [List.drop_eq_nil_of_le (List.getElem?_eq_none_iff.1 hm)] at hs
    cases hs
  | some m =>
    obtain ⟨⟨-, scan, hscan, -⟩, -⟩ := hr.standing.reading hf
    rw [upcoming_reading hf hm (by rw [hscan]; rfl)] at hs
    rcases List.mem_cons.1 hs with rfl | hs
    · rw [h.manifests] at hm
      exact hcovered.ahead hf m hm
    · obtain ⟨m', hm', rfl⟩ := List.mem_map.1 hs
      exact fun e he _ => hopened _ m' (hsub _ m' hm') hunbroken e he

/-- The entries that are collected are the live ones, where none is passed over. -/
theorem mem_gathered {up : List (IcebergManifest × List (Piece IcebergManifestEntry Error))}
    {s : IcebergManifest × List (Piece IcebergManifestEntry Error)} (hs : s ∈ up)
    (hlost : ∀ e ∈ lost standardVectorSize IcebergManifestEntry.live 0 (chunksOf s.2), e.live = false)
    {e : IcebergManifestEntry} (he : e ∈ rowsOf s.2) (hlive : e.live = true) :
    e ∈ gathered t.entryOp up := by
  refine List.mem_flatMap.2 ⟨s, hs, ?_⟩
  rw [keptEntries, formats_live t.supported, (kept_filter_eq_iff _ _ _).2 hlost]
  rw [rowsOf_eq_flatten] at he
  exact List.mem_filter.2 ⟨he, hlive⟩

theorem live_of_mem_gathered {up : List (IcebergManifest × List (Piece IcebergManifestEntry Error))}
    {e : IcebergManifestEntry} (he : e ∈ gathered t.entryOp up) :
    ∃ s ∈ up, e ∈ rowsOf s.2 ∧ e.live = true := by
  obtain ⟨s, hs, he⟩ := List.mem_flatMap.1 he
  rw [keptEntries, formats_live t.supported] at he
  obtain ⟨he, hlive⟩ := List.mem_filter.1 he
  refine ⟨s, hs, ?_, hlive⟩
  rw [rowsOf_eq_flatten]
  exact (kept_sublist _ _ _ _).subset he

/-- A call that throws before it has collected all leaves the deletes as they are. -/
theorem processDeletes_of_error {e : Error} {acc : List IcebergManifestEntry}
    (h : collect c l = (.error e, l', acc)) : processDeletes c l = ((.error e, l'), []) := by
  unfold processDeletes
  rw [h]

/-- The reader and its cursor are moved. -/
theorem Progress.withCursor (h : Progress t rows l) {r : ManifestReader} (k : ℕ)
    (hwaiting : Waiting t.entryOp r)
    (hcases : Blocked t.entryOp (l.withCursor r k) r ∨ Covered t rows (l.withCursor r k) r) :
    Progress t rows (l.withCursor r k) :=
  ⟨h.path_eq, h.options_eq, h.initialized, h.manifests, h.producer, r, rfl, hwaiting, hcases⟩

/-- Nobody gets past a delivery that cannot be read. -/
theorem processDeletes_blocked (h : Progress t rows l) {r : ManifestReader}
    (hr : l.deleteManifestEntryReader = some r) (hwaiting : Waiting t.entryOp r)
    (hblocked : Blocked t.entryOp l r) : Progress t rows (processDeletes c l).1.2 := by
  obtain ⟨hf, hlt, e, rest, hahead⟩ := hblocked
  have hm : l.deleteManifests[l.currentDeleteManifest]? =
      some l.deleteManifests[l.currentDeleteManifest] := List.getElem?_eq_getElem hlt
  obtain ⟨⟨-, scan, hscan, -⟩, -⟩ := hwaiting.standing.reading hf
  obtain ⟨post, hup⟩ : ∃ post, upcoming c t.entryOp r l =
      [] ++ (l.deleteManifests[l.currentDeleteManifest], [].map .rows ++ .stuck e :: rest) :: post := by
    rw [upcoming_reading hf hm (by rw [hscan]; rfl), hahead]
    exact ⟨_, rfl⟩
  obtain ⟨err, r', acc, hcollect, hwaiting', hleft, hf'⟩ :=
    collect_breaksOff h.producer hr hwaiting hup nofun (.stuck e rest)
  rw [processDeletes_of_error hcollect]
  have hf' := hf' rfl hf
  refine h.withCursor _ hwaiting' (Or.inl ⟨hf', hlt, e, rest, ?_⟩)
  rcases hleft with hfinished | hat
  · rw [hf'] at hfinished
    cases hfinished
  · exact hat.ahead_eq

/-- A call that reads all that is ahead, and scans all of it. -/
theorem processDeletes_covers (hsees : Sees t rows c) (h : Progress t rows l) {r : ManifestReader}
    (hr : l.deleteManifestEntryReader = some r) (hwaiting : Waiting t.entryOp r)
    (hcovered : Covered t rows l r)
    (hall : ∀ s ∈ upcoming c t.entryOp r l, Unbroken s.2 ∧
      (∀ e ∈ lost standardVectorSize IcebergManifestEntry.live 0 (chunksOf s.2), e.live = false) ∧
      ∀ e ∈ rowsOf s.2, e.live = true → CanScan c e) :
    Progress t rows (processDeletes c l).1.2 := by
  obtain ⟨r', hcollect, hwaiting'⟩ :=
    collect_unbroken h.producer hr hwaiting fun s hs => (hall s hs).1
  obtain ⟨res, scanned, added, hscan, hscans⟩ := scanDeleteFiles_spec c
    (gathered t.entryOp (upcoming c t.entryOp r l))
    (l.withCursor r' (l.currentDeleteManifest + (upcoming c t.entryOp r l).length))
  have hcan : ∀ e ∈ gathered t.entryOp (upcoming c t.entryOp r l), CanScan c e := by
    intro e he
    obtain ⟨s, hs, hrow, hlive⟩ := live_of_mem_gathered he
    exact (hall s hs).2.2 e hrow hlive
  have hadded : added = pairsOf c (gathered t.entryOp (upcoming c t.entryOp r l)) := by
    cases hscans with
    | all => rfl
    | upTo pre post e heq _ he =>
      obtain ⟨pairs, hpairs⟩ := hcan e (by rw [heq]; simp)
      rw [hpairs] at he
      cases he
  have hup := upcoming_manifests c t.entryOp r l
  have hlen := congrArg List.length hup
  rw [List.length_drop, List.length_map, h.manifests] at hlen
  have hprocess : (processDeletes c l).1.2 = (l.withCursor r'
      (l.currentDeleteManifest + (upcoming c t.entryOp r l).length)).withDeletes added := by
    unfold processDeletes
    rw [hcollect]
    dsimp only
    rw [hscan]
  have hstored : ∀ e ∈ gathered t.entryOp (upcoming c t.entryOp r l),
      Stored (l.withDeletes added) (rows e.filePath) := by
    intro e he p hp
    obtain ⟨pairs, hpairs⟩ := hcan e he
    obtain rfl := hsees.deleteFiles e.filePath pairs hpairs
    unfold withDeletes
    rw [mem_invalidRows_addRows, hadded]
    refine Or.inr ⟨p.1, rfl, List.mem_flatMap.2 ⟨e, he, ?_⟩⟩
    rw [pairsIn, hpairs]
    exact hp
  rw [hprocess]
  refine ⟨h.path_eq, h.options_eq, h.initialized, h.manifests, h.producer, r', rfl, hwaiting',
    Or.inr ⟨fun m hm e he hlive => ?_, fun _ m hm => ?_⟩⟩
  · have hmem := List.mem_of_mem_take hm
    rw [← List.take_append_drop l.currentDeleteManifest t.keptDeletes] at hmem
    rcases List.mem_append.1 hmem with hbefore | hahead
    · exact stored_withDeletes (hcovered.passed m hbefore e he hlive) added
    · rw [← h.manifests, ← hup] at hahead
      obtain ⟨s, hs, rfl⟩ := List.mem_map.1 hahead
      obtain ⟨hunbroken, hlost, -⟩ := hall s hs
      have hrow := live_mem_upcoming hsees h hwaiting hcovered hs hunbroken e he hlive
      exact hstored e (mem_gathered hs hlost hrow hlive)
  · rw [List.getElem?_eq_none] at hm
    · cases hm
    · show _ ≤ l.currentDeleteManifest + (upcoming c t.entryOp r l).length
      omega

/-- A call that throws before it has read a live entry. -/
theorem processDeletes_breaksOff (hsees : Sees t rows c) (h : Progress t rows l)
    {r : ManifestReader} (hr : l.deleteManifestEntryReader = some r) (hwaiting : Waiting t.entryOp r)
    (hcovered : Covered t rows l r)
    {pre post : List (IcebergManifest × List (Piece IcebergManifestEntry Error))}
    {m : IcebergManifest} {chunks : List (List IcebergManifestEntry)}
    {tail : List (Piece IcebergManifestEntry Error)}
    (hup : upcoming c t.entryOp r l = pre ++ (m, chunks.map .rows ++ tail) :: post)
    (htail : Breaks tail) (hpre : ∀ s ∈ pre, Unbroken s.2 ∧ ∀ e ∈ rowsOf s.2, e.live = false)
    (hahead : ∀ err rest, tail = .fails err :: rest →
      ∀ e ∈ (t.entries m).flatten, e.live = true → e ∈ rowsOf rest) :
    Progress t rows (processDeletes c l).1.2 := by
  obtain ⟨err, r', acc, hcollect, hwaiting', hleft, -⟩ :=
    collect_breaksOff h.producer hr hwaiting hup (fun s hs => (hpre s hs).1) htail
  rw [processDeletes_of_error hcollect]
  refine h.withCursor _ hwaiting' ?_
  have hmanifests := upcoming_manifests c t.entryOp r l
  rw [hup, List.map_append, List.map_cons, h.manifests] at hmanifests
  have hget : t.keptDeletes[l.currentDeleteManifest + pre.length]? = some m := by
    rw [← List.getElem?_drop, ← hmanifests, List.getElem?_append_right (by simp)]
    simp
  have hpassed : ReadUpTo t rows l (t.keptDeletes.take (l.currentDeleteManifest + pre.length)) := by
    intro m' hm' e he hlive
    rw [List.take_add, ← hmanifests, List.take_left' (List.length_map _)] at hm'
    rcases List.mem_append.1 hm' with hbefore | hpassed
    · exact hcovered.passed m' hbefore e he hlive
    · -- no live entry was read in this call
      obtain ⟨s, hs, rfl⟩ := List.mem_map.1 hpassed
      obtain ⟨hunbroken, hnone⟩ := hpre s hs
      have hmem : s ∈ upcoming c t.entryOp r l := by
        rw [hup]
        exact List.mem_append_left _ hs
      have hrow := live_mem_upcoming hsees h hwaiting hcovered hmem hunbroken e he hlive
      rw [hnone e hrow] at hlive
      cases hlive
  cases htail with
  | fails e rest =>
    refine Or.inr ⟨hpassed, fun _ m' hm' => ?_⟩
    obtain rfl := Option.some.inj (hget.symm.trans hm')
    rw [show r'.ahead t.entryOp = rest from hleft.ahead_eq]
    exact hahead e rest rfl
  | stuck e rest =>
    rcases hleft with hf | hat
    · refine Or.inr ⟨hpassed, fun hf' => ?_⟩
      rw [hf] at hf'
      cases hf'
    · refine Or.inl ⟨isFinished_of_reading hat.reading, ?_, e, rest, hat.ahead_eq⟩
      show l.currentDeleteManifest + pre.length < l.deleteManifests.length
      rw [h.manifests]
      exact (List.getElem?_eq_some_iff.1 hget).1

/-- **A call that loses nothing** keeps what is ahead and what has been read together complete. -/
theorem processDeletes_progress (hsees : Sees t rows c) (h : Progress t rows l)
    (hnothing : ∀ r, l.deleteManifestEntryReader = some r →
      LosesNothing t c (upcoming c t.entryOp r l)) :
    Progress t rows (processDeletes c l).1.2 := by
  obtain ⟨r, hr, hwaiting, hblocked | hcovered⟩ := h.reader
  · exact processDeletes_blocked h hr hwaiting hblocked
  · have hcases := hnothing r hr
    generalize hup : upcoming c t.entryOp r l = up at hcases
    cases hcases with
    | completes _ hall =>
      rw [← hup] at hall
      exact processDeletes_covers hsees h hr hwaiting hcovered hall
    | breaksOff pre post m chunks tail htail hpre hahead =>
      exact processDeletes_breaksOff hsees h hr hwaiting hcovered hup htail hpre hahead

/-! ### Runs -/

variable {ρ : Type}

/-- A step of a run: a call of a public function of the list, or a chunk of a data file that is
finalised. -/
inductive RunStep (ρ : Type)
  | files (q : Call)
  | finalize (fileId : ℕ) (chunk : List ρ)

/-- The list after a step, which is made in its own session. -/
def stepList (rowId : ρ → ℤ) (l : IcebergMultiFileList) (s : ClientContext × RunStep ρ) :
    IcebergMultiFileList :=
  match s.2 with
  | .files q => (call s.1 l q).2
  | .finalize fileId chunk => (finalizeChunk s.1 fileId rowId chunk l).2

/-- The list after a run. -/
def afterRun (rowId : ρ → ℤ) (l : IcebergMultiFileList)
    (steps : List (ClientContext × RunStep ρ)) : IcebergMultiFileList :=
  steps.foldl (stepList rowId) l

variable (t) in
/-- The step loses no entry, if it is one that processes the deletes. -/
def Keeps (l : IcebergMultiFileList) (s : ClientContext × RunStep ρ) : Prop :=
  match s.2 with
  | .files _ => True
  | .finalize fileId _ => fileId < l.dataFiles.length → ¬ l.DeletesProcessed →
    ∀ r, l.deleteManifestEntryReader = some r → LosesNothing t s.1 (upcoming s.1 t.entryOp r l)

variable (t) in
/-- No step of the run loses an entry. -/
def EachKeeps (rowId : ρ → ℤ) : List (ClientContext × RunStep ρ) → IcebergMultiFileList → Prop
  | [], _ => True
  | s :: steps, l => Keeps t l s ∧ EachKeeps rowId steps (stepList rowId l s)

theorem eachKeeps_append {rowId : ρ → ℤ} {pre post : List (ClientContext × RunStep ρ)}
    {l : IcebergMultiFileList} :
    EachKeeps t rowId (pre ++ post) l ↔
      EachKeeps t rowId pre l ∧ EachKeeps t rowId post (afterRun rowId l pre) := by
  induction pre generalizing l with
  | nil => exact (and_iff_right trivial).symm
  | cons s pre ih =>
    rw [List.cons_append, EachKeeps, EachKeeps, ih, and_assoc]
    rfl

variable (t rows) in
/-- **No chunk is returned under an incomplete set of deletes** in the run. -/
structure NeverIncomplete (rowId : ρ → ℤ) (l₀ : IcebergMultiFileList)
    (steps : List (ClientContext × RunStep ρ)) : Prop where
  /-- Where the deletes count as processed, all rows of the live delete files are among them. -/
  processed : ∀ pre post, steps = pre ++ post → (afterRun rowId l₀ pre).DeletesProcessed →
    Stored (afterRun rowId l₀ pre) (t.deleteRows rows)
  /-- A chunk that is returned has none of these rows. -/
  filtered : ∀ pre c fileId chunk post left, steps = pre ++ (c, .finalize fileId chunk) :: post →
    (finalizeChunk c fileId rowId chunk (afterRun rowId l₀ pre)).1 = .ok left →
      ∃ dataFile, (afterRun rowId l₀ pre).dataFiles[fileId]? = some dataFile ∧
        ∀ x ∈ left, x ∈ chunk ∧ (dataFile.filePath, rowId x) ∉ t.deleteRows rows

/-- What the critical section of `FinalizeChunk` does to the list. -/
theorem deletesOf_cases (c : ClientContext) (file : String) (l : IcebergMultiFileList) :
    (l.DeletesProcessed ∧ deletesOf c file l = (.ok (l.getDeletesForFile file), l)) ∨
      (¬ l.DeletesProcessed ∧ (deletesOf c file l).2 = (processDeletes c l).1.2 ∧
        ∀ deletes, (deletesOf c file l).1 = .ok deletes →
          deletesOf c file l = (.ok ((processDeletes c l).1.2.getDeletesForFile file),
            (processDeletes c l).1.2) ∧ (processDeletes c l).1.2.DeletesProcessed) := by
  unfold deletesOf
  by_cases hend : l.DeletesProcessed
  · rw [if_pos hend]
    exact Or.inl ⟨hend, rfl⟩
  · rw [if_neg hend]
    refine Or.inr ⟨hend, ?_⟩
    rcases hrun : processDeletes c l with ⟨⟨e | u, l'⟩, scanned⟩
    · exact ⟨rfl, nofun⟩
    · exact ⟨rfl, fun _ _ => ⟨rfl, (processDeletes_completes hrun).2.2.2.1⟩⟩

theorem finalizeChunk_of_error {rowId : ρ → ℤ} {chunk : List ρ} {fileId : ℕ}
    {dataFile : IcebergManifestEntry} (hfile : l.dataFiles[fileId]? = some dataFile) {e : Error}
    (h : (deletesOf c dataFile.filePath l).1 = .error e) :
    (finalizeChunk c fileId rowId chunk l).1 = .error e := by
  unfold finalizeChunk
  rw [hfile]
  dsimp only
  generalize deletesOf c dataFile.filePath l = out at h ⊢
  obtain ⟨res, l'⟩ := out
  obtain rfl : res = .error e := h
  rfl

/-- **A step** keeps what is ahead and what has been read together complete. -/
theorem stepList_progress (rowId : ρ → ℤ) {s : ClientContext × RunStep ρ}
    (hsees : Sees t rows s.1) (h : Progress t rows l) (hkeeps : Keeps t l s) :
    Progress t rows (stepList rowId l s) := by
  obtain ⟨c, q | ⟨fileId, chunk⟩⟩ := s
  · exact h.dataMoved (call_dataMoved c h.initialized q)
  · have hlist : (finalizeChunk c fileId rowId chunk l).2 =
        (l.dataFiles[fileId]?).elim l fun dataFile => (deletesOf c dataFile.filePath l).2 := by
      unfold finalizeChunk
      cases l.dataFiles[fileId]? with
      | none => rfl
      | some dataFile =>
        dsimp only [Option.elim]
        rcases deletesOf c dataFile.filePath l with ⟨e | _ | deletes, l'⟩ <;> rfl
    show Progress t rows (finalizeChunk c fileId rowId chunk l).2
    rw [hlist]
    cases hfile : l.dataFiles[fileId]? with
    | none => exact h
    | some dataFile =>
      dsimp only [Option.elim]
      rcases deletesOf_cases c dataFile.filePath l with ⟨-, hsame⟩ | ⟨hend, hprocess, -⟩
      · rw [hsame]
        exact h
      · rw [hprocess]
        exact processDeletes_progress hsees h
          (hkeeps (List.getElem?_eq_some_iff.1 hfile).1 hend)

/-- What `InitializeFiles` leaves has all of it ahead. -/
theorem progress_initialized : Progress t rows (initializeFiles ctx (ofPath path options)).2 := by
  obtain ⟨r, hinit⟩ := initializeFiles_recorded t
  rw [hinit]
  have hidle : Idle t.entryOp { make t.entryOp with skipDeleted := true } :=
    ⟨⟨rfl, rfl⟩, rfl, rfl⟩
  refine ⟨rfl, rfl, rfl, rfl, rfl, _, rfl, hidle.waiting, Or.inr ⟨?_, nofun⟩⟩
  exact fun m hm => nomatch hm

/-- **A run** keeps what is ahead and what has been read together complete. -/
theorem afterRun_progress (rowId : ρ → ℤ) {steps : List (ClientContext × RunStep ρ)}
    (hsees : ∀ s ∈ steps, Sees t rows s.1) (h : Progress t rows l)
    (hkeeps : EachKeeps t rowId steps l) : Progress t rows (afterRun rowId l steps) := by
  induction steps generalizing l with
  | nil => exact h
  | cons s steps ih =>
    obtain ⟨hs, hsees⟩ := List.forall_mem_cons.1 hsees
    obtain ⟨hkeep, hkeeps⟩ := hkeeps
    exact ih hsees (stepList_progress rowId hs h hkeep) hkeeps

/-- **No chunk is returned under an incomplete set of deletes**, in whatever order chunks are
finalised and other calls are made, and whichever of them throw, as long as no delete manifest with
a live entry was passed over and no call loses an entry. -/
theorem chunks_complete (rowId : ρ → ℤ)
    (hlist : ∀ m ∈ t.passedOver, m.content ≠ .data → ∀ e ∈ (t.entries m).flatten, e.live = false)
    {steps : List (ClientContext × RunStep ρ)} (hsees : ∀ s ∈ steps, Sees t rows s.1)
    (hkeeps : EachKeeps t rowId steps (initializeFiles ctx (ofPath path options)).2) :
    NeverIncomplete t rows rowId (initializeFiles ctx (ofPath path options)).2 steps := by
  have hinit : Progress t rows (initializeFiles ctx (ofPath path options)).2 := progress_initialized
  generalize (initializeFiles ctx (ofPath path options)).2 = l₀ at hkeeps hinit ⊢
  have hprogress : ∀ pre post, steps = pre ++ post → Progress t rows (afterRun rowId l₀ pre) := by
    rintro pre post rfl
    exact afterRun_progress rowId (fun s hs => hsees s (List.mem_append_left _ hs)) hinit
      (eachKeeps_append.1 hkeeps).1
  have hstored : ∀ l, Progress t rows l → l.DeletesProcessed → Stored l (t.deleteRows rows) := by
    intro l hl hend p hp
    unfold Recorded.deleteRows at hp
    rw [← (live_keptDeletes_iff t).2 hlist] at hp
    obtain ⟨e, he, hrow⟩ := List.mem_flatMap.1 hp
    obtain ⟨m, hm, he⟩ := List.mem_flatMap.1 he
    obtain ⟨he, hlive⟩ := List.mem_filter.1 he
    exact hl.stored hend m hm e he hlive p hrow
  refine ⟨fun pre post heq hend => hstored _ (hprogress pre post heq) hend, ?_⟩
  intro pre c fileId chunk post left heq hleft
  have hl := hprogress pre _ heq
  have hnext : Progress t rows (finalizeChunk c fileId rowId chunk (afterRun rowId l₀ pre)).2 := by
    have hsee : Sees t rows c := hsees (c, .finalize fileId chunk) (by rw [heq]; simp)
    rw [heq] at hkeeps
    obtain ⟨-, hkeep, -⟩ := eachKeeps_append.1 hkeeps
    exact stepList_progress rowId hsee hl hkeep
  generalize afterRun rowId l₀ pre = l at hleft hl hnext ⊢
  cases hfile : l.dataFiles[fileId]? with
  | none =>
    rw [finalizeChunk, hfile] at hleft
    cases hleft
  | some dataFile =>
    -- the deletes are complete where the chunk is returned
    obtain ⟨l', hdeletes, hend⟩ : ∃ l', deletesOf c dataFile.filePath l =
        (.ok (l'.getDeletesForFile dataFile.filePath), l') ∧ l'.DeletesProcessed := by
      rcases deletesOf_cases c dataFile.filePath l with ⟨hend, hsame⟩ | ⟨-, -, hok⟩
      · exact ⟨l, hsame, hend⟩
      · rcases hres : (deletesOf c dataFile.filePath l).1 with e | deletes
        · rw [finalizeChunk_of_error hfile hres] at hleft
          cases hleft
        · exact ⟨_, hok deletes hres⟩
    have hreturn := finalizeChunk_of_deletesOf rowId chunk hfile hdeletes
    rw [hreturn] at hleft hnext
    obtain rfl := Except.ok.inj hleft
    refine ⟨dataFile, rfl, fun x hx => ?_⟩
    obtain ⟨hx, hkept⟩ := List.mem_filter.1 hx
    refine ⟨hx, fun hrow => ?_⟩
    exact of_decide_eq_true hkept (hstored l' hnext hend _ hrow)

end Runs

/-! ### A table with one delete file -/

/-- A session that opens no other files than these sees what they record. -/
theorem recordedOf_sees {manifests : List (IcebergManifest × List (List IcebergManifestEntry))}
    {parquet : String → Option ParquetScan} (hd : Deliverable (manifests.map Prod.fst))
    (hw : ∀ m ∈ manifests, m.1.Writable)
    (hpaths : ("snap-1.avro" :: manifests.map (·.1.manifestPath)).Nodup)
    (hentries : ∀ m ∈ manifests, ∀ es ∈ m.2, Deliverable es ∧ ∀ e ∈ es, e.Writable)
    (hc : Interrupts (manifestFiles manifests parquet).context c)
    (hparquet : ∀ file pairs, deletePairs c file = .ok pairs →
      deletePairs (manifestFiles manifests parquet).context file = .ok pairs) :
    Sees (recordedOf manifests parquet hd hw)
      (pairsIn (manifestFiles manifests parquet).context) c := by
  refine ⟨fun m hm types chunks hdelivered => ?_, fun file pairs hpairs => ?_⟩
  · have hm : m ∈ manifests.map Prod.fst := by
      simpa [recordedOf] using mem_flatten_of_mem_keptDeletes hm
    obtain ⟨_, hopen, hscan, hread⟩ := recordedOf_opens parquet hd hw hpaths hentries m hm
    obtain ⟨scan, hopen', hread'⟩ := hdelivered
    rw [openAvro_of_interrupts hc hopen'] at hopen
    obtain rfl := Except.ok.inj hopen
    have heq := openAvro_of_interrupts hc hopen'
    rw [recordedOf_openAvro parquet hpaths m hm] at heq
    obtain rfl := Except.ok.inj heq
    show _ = ((manifests.lookup m).getD []).flatten
    by_cases hne : (manifests.lookup m).getD [] = []
    · rw [hne] at hread' ⊢
      cases chunks with
      | nil => rfl
      | cons _ _ => cases hread'.delivers
    · have htypes := returnTypes_of_readable hne hread'
      rw [← htypes, hscan] at hread'
      exact congrArg List.flatten (delivered_unique ⟨_, hopen', hread'⟩ ⟨_, hopen', hread⟩)
  · rw [pairsIn, hparquet file pairs hpairs]

/-- A table with a data file and a file of position deletes. -/
def oneDelete : List (IcebergManifest × List (List IcebergManifestEntry)) :=
  dataAndDeletes ["a.parquet"] [.ofDeletes .positionDeletes "d.parquet"]

/-- Its files; one row is deleted. -/
def oneDeleteFiles : TableFiles :=
  manifestFiles oneDelete (onlyDeletes [("a.parquet", 3)] deliverable_third)

/-- What they record. -/
def oneDeleteTable : Recorded oneDeleteFiles.context "v1.metadata.json" {} :=
  recordedOf oneDelete _ (by decide) (by decide)

/-- A session in which the delete manifest cannot be opened. -/
def manifestMissing : ClientContext :=
  { oneDeleteFiles.context with
    readAvro path :=
      if path = "d.avro" then .error (TableFiles.missing path)
      else oneDeleteFiles.context.readAvro path }

/-- A session in which no delete file can be opened. -/
def deletesMissing : ClientContext :=
  { oneDeleteFiles.context with parquetScan path := .error (TableFiles.missing path) }

/-- The rows in its delete files. -/
abbrev deletedRows : String → List (String × ℤ) := pairsIn oneDeleteFiles.context

theorem oneDelete_sees {c : ClientContext} (hc : Interrupts oneDeleteFiles.context c)
    (hparquet : ∀ file pairs, deletePairs c file = .ok pairs →
      deletePairs oneDeleteFiles.context file = .ok pairs) :
    Sees oneDeleteTable deletedRows c :=
  recordedOf_sees (by decide) (by decide) (by decide) (by decide) hc hparquet

theorem oneDelete_rows : oneDeleteTable.deleteRows deletedRows = [("a.parquet", 3)] := by
  decide +kernel

theorem manifestMissing_sees : Sees oneDeleteTable deletedRows manifestMissing := by
  refine oneDelete_sees ⟨rfl, fun path scan h => ?_⟩ fun _ _ h => h
  change (if path = "d.avro" then _ else _) = _ at h
  split_ifs at h
  exact h

theorem deletesMissing_sees : Sees oneDeleteTable deletedRows deletesMissing := by
  refine oneDelete_sees ⟨rfl, fun _ _ h => h⟩ fun file pairs h => ?_
  cases h

/-- Files are counted, a chunk is finalised in this session, and again where nothing is missing. -/
def interruptedRun (c : ClientContext) (chunk : List ℤ) : List (ClientContext × RunStep ℤ) :=
  [(oneDeleteFiles.context, .files .getTotalFileCount), (c, .finalize 0 chunk),
    (oneDeleteFiles.context, .finalize 0 chunk)]

theorem interruptedRun_sees {c : ClientContext} (hc : Sees oneDeleteTable deletedRows c)
    (chunk : List ℤ) : ∀ s ∈ interruptedRun c chunk, Sees oneDeleteTable deletedRows s.1 := by
  have hsame := oneDelete_sees (.refl _) fun _ _ h => h
  exact List.forall_mem_cons.2 ⟨hsame,
    List.forall_mem_cons.2 ⟨hc, List.forall_mem_singleton.2 hsame⟩⟩

/-- The delete manifest of the table. -/
def deletesManifest : IcebergManifest := ⟨"d.avro", 1, .delete⟩

/-- As long as the reader has not opened the manifest, it is ahead. -/
theorem upcoming_oneDelete {c : ClientContext} {l : IcebergMultiFileList} {r : ManifestReader}
    (hl : Progress oneDeleteTable deletedRows l) (hk : l.currentDeleteManifest = 0)
    (hr : r.scan = none) :
    upcoming c icebergManifestEntryV2 r l =
      [(deletesManifest, openedPieces c "v1.metadata.json" {} icebergManifestEntryV2
        (firstLayout c "v1.metadata.json" {} [deletesManifest]) deletesManifest)] := by
  have hf : r.isFinished = true := by rw [isFinished, hr]
  have hmanifests : oneDeleteTable.keptDeletes = [deletesManifest] := by decide +kernel
  rw [upcoming_finished hf, hl.manifests, hmanifests, hk, hl.path_eq, hl.options_eq, layoutFor, hr]
  rfl

/-- Where the manifest cannot be opened, nothing is lost. -/
theorem manifestMissing_losesNothing {l : IcebergMultiFileList} {r : ManifestReader}
    (hl : Progress oneDeleteTable deletedRows l) (hk : l.currentDeleteManifest = 0)
    (hr : r.scan = none) :
    LosesNothing oneDeleteTable manifestMissing
      (upcoming manifestMissing icebergManifestEntryV2 r l) := by
  rw [upcoming_oneDelete hl hk hr]
  exact .breaksOff [] [] deletesManifest [] [.stuck (TableFiles.missing "d.avro")] (.stuck _ _)
    nofun nofun

/-- Where all files are there, nothing is lost. -/
theorem oneDelete_losesNothing {l : IcebergMultiFileList} {r : ManifestReader}
    (hl : Progress oneDeleteTable deletedRows l) (hk : l.currentDeleteManifest = 0)
    (hr : r.scan = none) :
    LosesNothing oneDeleteTable oneDeleteFiles.context
      (upcoming oneDeleteFiles.context icebergManifestEntryV2 r l) := by
  have hmanifests : oneDeleteTable.keptDeletes = [deletesManifest] := by decide +kernel
  have hmem : deletesManifest ∈ oneDeleteTable.keptDeletes := by
    rw [hmanifests]
    exact List.mem_singleton_self _
  have hdelivered : Delivered oneDeleteFiles.context "v1.metadata.json" {} icebergManifestEntryV2
      oneDeleteTable.deleteLayout deletesManifest (oneDeleteTable.entries deletesManifest) :=
    recordedOf_faithful _ (by decide) (by decide) (by decide) (by decide) deletesManifest hmem
  have hentries : oneDeleteTable.entries deletesManifest =
      [[.ofDeletes .positionDeletes "d.parquet"]] := by decide +kernel
  have hpieces := delivered_iff.1 hdelivered
  rw [Recorded.deleteLayout, hmanifests, hentries] at hpieces
  rw [upcoming_oneDelete hl hk hr, hpieces]
  refine .completes _ (List.forall_mem_singleton.2 ⟨unbroken_map_rows _, ?_, ?_⟩)
  · rw [chunksOf_map_rows]
    decide
  · rw [rowsOf_map_rows]
    refine List.forall_mem_singleton.2 fun _ => ⟨[("a.parquet", 3)], rfl⟩

/-- The delete manifest is missing when the first chunk is finalised: the second is complete. -/
theorem chunks_complete_missing_manifest :
    NeverIncomplete oneDeleteTable deletedRows id (initializedList oneDeleteFiles.context)
      (interruptedRun manifestMissing [0, 3]) := by
  have hsees := interruptedRun_sees manifestMissing_sees [0, 3]
  refine chunks_complete id (by decide +kernel) hsees ?_
  set l₁ := stepList id (initializedList oneDeleteFiles.context)
    ((oneDeleteFiles.context, .files .getTotalFileCount) : ClientContext × RunStep ℤ) with hl₁
  set l₂ := stepList id l₁ ((manifestMissing, .finalize 0 [0, 3]) : ClientContext × RunStep ℤ)
    with hl₂
  have hinit : Progress oneDeleteTable deletedRows (initializedList oneDeleteFiles.context) :=
    progress_initialized
  have hone : Progress oneDeleteTable deletedRows l₁ :=
    stepList_progress id (hsees _ List.mem_cons_self) hinit trivial
  have hunopened : ∀ r, l₁.deleteManifestEntryReader = some r → r.scan = none := by
    intro r hr
    have hscan : l₁.deleteManifestEntryReader.elim false (fun r => r.scan.isNone) = true := by
      decide +kernel
    rw [hr] at hscan
    exact Option.isNone_iff_eq_none.1 hscan
  have hfirst : Keeps oneDeleteTable l₁
      ((manifestMissing, .finalize 0 [0, 3]) : ClientContext × RunStep ℤ) :=
    fun _ _ r hr => manifestMissing_losesNothing hone (by decide +kernel) (hunopened r hr)
  have htwo : Progress oneDeleteTable deletedRows l₂ :=
    stepList_progress id manifestMissing_sees hone hfirst
  refine ⟨trivial, hfirst, fun _ _ r hr => ?_, trivial⟩
  refine oneDelete_losesNothing htwo (by decide +kernel) ?_
  have hscan : l₂.deleteManifestEntryReader.elim false (fun r => r.scan.isNone) = true := by
    decide +kernel
  rw [show l₂.deleteManifestEntryReader = some r from hr] at hscan
  exact Option.isNone_iff_eq_none.1 hscan

/-- A delete file is missing when the first chunk is finalised: the second is returned as it is. -/
theorem not_neverIncomplete_missing_delete_file :
    ¬ ∀ (ctx : ClientContext) (path : String) (options : IcebergOptions)
      (t : Recorded ctx path options) (rows : String → List (String × ℤ)) (rowId : ℤ → ℤ)
      (steps : List (ClientContext × RunStep ℤ)), (∀ s ∈ steps, Sees t rows s.1) →
      NeverIncomplete t rows rowId (initializeFiles ctx (ofPath path options)).2 steps := by
  intro hall
  have hnever := hall _ _ _ oneDeleteTable deletedRows id (interruptedRun deletesMissing [3])
    (interruptedRun_sees deletesMissing_sees _)
  obtain ⟨dataFile, hfile, hleft⟩ := hnever.filtered [_, _] _ 0 [3] [] [3] rfl (by decide +kernel)
  have hpath : (some dataFile).map IcebergManifestEntry.filePath = some "a.parquet" := by
    rw [← hfile]
    decide +kernel
  have hrow := (hleft 3 (List.mem_singleton_self 3)).2
  rw [oneDelete_rows, Option.some.inj hpath] at hrow
  exact hrow (List.mem_singleton_self _)

end IcebergMultiFileList

end DuckIceberg
