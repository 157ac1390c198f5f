import DuckIceberg.CollectDeletes
import DuckIceberg.Initialization

/-!
# Delete files

What `ScanDeleteFile` reads from a delete file, and what is left of a chunk after it.

* `scanDeleteFile_spec`: the pairs of the file are added, or an exception is thrown where
  `deletePairs` throws it;
* `scanDeleteFiles_spec`: the files are read one after the other, up to the first that fails;
* `finalizeChunk_exact_iff`: `FinalizeChunk` takes out the rows that the deletes name for a file,
  and no others, exactly when no other file is named by the same letters.
-/

namespace DuckIceberg

open Strings Stride ManifestReader

/-! ### The map of deletes -/

/-- The rows that are invalid in a file. -/
def invalidRows (deleteData : CIMap (Finset ℤ)) (path : String) : Finset ℤ :=
  (deleteData.find? path).getD ∅

theorem mem_invalidRows_addRow (deleteData : CIMap (Finset ℤ)) (g f : String) (r s : ℤ) :
    s ∈ invalidRows (addRow deleteData g r) f ↔
      s ∈ invalidRows deleteData f ∨ ciEquals g f ∧ s = r := by
  unfold invalidRows addRow ciEquals
  rw [NormMap.find?_update]
  split_ifs with h
  · simp [h, or_comm]
  · simp [h]

/-- The invalid rows of a file are those named for it, up to the case of letters. -/
theorem mem_invalidRows_addRows (pairs : List (String × ℤ)) (deleteData : CIMap (Finset ℤ))
    (f : String) (r : ℤ) :
    r ∈ invalidRows (addRows deleteData pairs) f ↔
      r ∈ invalidRows deleteData f ∨ ∃ g, ciEquals g f ∧ (g, r) ∈ pairs := by
  induction pairs generalizing deleteData with
  | nil => simp [addRows]
  | cons p pairs ih =>
    obtain ⟨g, s⟩ := p
    rw [addRows, List.foldl_cons, ← addRows, ih, mem_invalidRows_addRow, or_assoc]
    refine or_congr_right ?_
    constructor
    · rintro (⟨hg, rfl⟩ | ⟨g', hg', hmem⟩)
      · exact ⟨g, hg, List.mem_cons_self⟩
      · exact ⟨g', hg', List.mem_cons_of_mem _ hmem⟩
    · rintro ⟨g', hg', hmem⟩
      rcases List.mem_cons.1 hmem with heq | hmem
      · obtain ⟨rfl, rfl⟩ := Prod.mk.inj heq
        exact Or.inl ⟨hg', rfl⟩
      · exact Or.inr ⟨g', hg', hmem⟩

theorem addRows_append (deleteData : CIMap (Finset ℤ)) (pairs pairs' : List (String × ℤ)) :
    addRows deleteData (pairs ++ pairs') = addRows (addRows deleteData pairs) pairs' :=
  List.foldl_append

/-! ### One delete file -/

/-- The pairs of a path and a row that the deliveries of a delete file hold, or the exception that
reading them throws. -/
def streamPairs (returnTypes : List LogicalType) :
    List (Except Error Batch) → Except Error (List (String × ℤ))
  | [] =>
    if returnTypes.length < 2 then
      .error ⟨.internal, "Attempted to access index out of range of a vector"⟩
    else .ok []
  | delivery :: stream => do
    let pairs ← batchPairs (← delivery)
    let rest ← streamPairs returnTypes stream
    return pairs ++ rest

/-- The pairs that a delete file holds, or the exception that reading them throws. -/
def deletePairs (ctx : ClientContext) (path : String) : Except Error (List (String × ℤ)) := do
  let scan ← ctx.parquetScan path
  streamPairs scan.returnTypes scan.stream

/-- The pairs that the deliveries hold before the first that throws. -/
def readPairs : List (Except Error Batch) → List (String × ℤ)
  | [] => []
  | .error _ :: _ => []
  | .ok b :: stream =>
    match batchPairs b with
    | .error _ => []
    | .ok pairs => pairs ++ readPairs stream

/-- The pairs that are read from a delete file before it throws. -/
def filePairs (ctx : ClientContext) (path : String) : List (String × ℤ) :=
  match ctx.parquetScan path with
  | .error _ => []
  | .ok scan => readPairs scan.stream

/-- Whatever row comes next, it is added under its own path: the bucket at hand is that of the
current path, which is there. -/
theorem scanRow_spec (m : CIMap (Finset ℤ)) (path : String) (row : String × ℤ) :
    scanRow ⟨touch m path, path, path⟩ row =
      ⟨addRow (touch m path) row.1 row.2, row.1, row.1⟩ := by
  unfold scanRow
  by_cases h : row.1 = path
  · rw [if_neg (not_not.2 h), h]
  · rw [if_pos h]
    show ScanState.mk (addRow (touch (touch m path) row.1) row.1 row.2) _ _ = _
    rw [addRow, touch, NormMap.update_update]
    rfl

/-- A path that has a row has a bucket. -/
theorem touch_addRow (m : CIMap (Finset ℤ)) (path : String) (rowId : ℤ) :
    touch (addRow m path rowId) path = addRow m path rowId := by
  rw [touch, addRow, NormMap.update_update]
  rfl

/-- **The cached bucket** is the one that is looked up for each row. -/
theorem scanRows_eq (deleteData : CIMap (Finset ℤ)) (rows : List (String × ℤ)) :
    scanRows deleteData rows = addRows deleteData rows := by
  -- the invariant: a path and its bucket are at hand, and the bucket is in the map
  have hfold : ∀ (rows : List (String × ℤ)) (m : CIMap (Finset ℤ)) (path : String),
      touch m path = m →
        (rows.foldl scanRow ⟨m, path, path⟩).deleteData = addRows m rows := by
    intro rows
    induction rows with
    | nil => exact fun m path _ => rfl
    | cons row rows ih =>
      intro m path hm
      have hrow := scanRow_spec m path row
      rw [hm] at hrow
      rw [List.foldl_cons, hrow, ih _ _ (touch_addRow m row.1 row.2)]
      rfl
  cases rows with
  | nil => rfl
  | cons row rows =>
    have hfirst : scanRow (.rebind deleteData row.1) row =
        ⟨addRow deleteData row.1 row.2, row.1, row.1⟩ := by
      rw [ScanState.rebind, scanRow_spec, addRow, touch, NormMap.update_update]
      rfl
    rw [scanRows, List.foldl_cons, hfirst, hfold rows _ _ (touch_addRow deleteData row.1 row.2)]
    rfl

/-- The loop of `ScanDeleteFile` adds the pairs that are delivered before an exception. -/
theorem scanDeleteChunks_spec (returnTypes : List LogicalType)
    (stream : List (Except Error Batch)) (deleteData : CIMap (Finset ℤ)) :
    scanDeleteChunks returnTypes stream deleteData =
        ((streamPairs returnTypes stream).map (fun _ => ()), addRows deleteData (readPairs stream)) ∧
      ∀ pairs, streamPairs returnTypes stream = .ok pairs → readPairs stream = pairs := by
  induction stream generalizing deleteData with
  | nil =>
    refine ⟨?_, fun pairs h => ?_⟩
    · rw [scanDeleteChunks, streamPairs]
      split_ifs <;> rfl
    · rw [streamPairs] at h
      split_ifs at h
      exact Except.ok.inj h
  | cons delivery stream ih =>
    cases delivery with
    | error e => exact ⟨rfl, fun _ h => by cases h⟩
    | ok b =>
      cases hb : batchPairs b with
      | error e =>
        have hstream : streamPairs returnTypes (.ok b :: stream) = .error e := by
          simp only [streamPairs, Bind.bind, Except.bind, hb]
        rw [hstream, readPairs]
        simp only [hb]
        exact ⟨by simp only [scanDeleteChunks, hb]; rfl, fun _ h => by cases h⟩
      | ok head =>
        have hstream : streamPairs returnTypes (.ok b :: stream) =
            (streamPairs returnTypes stream).map (head ++ ·) := by
          simp only [streamPairs, Bind.bind, Except.bind, hb]
          cases streamPairs returnTypes stream <;> rfl
        obtain ⟨hscan, hread⟩ := ih (addRows deleteData head)
        rw [hstream, readPairs]
        simp only [hb]
        refine ⟨?_, fun pairs h => ?_⟩
        · simp only [scanDeleteChunks, hb, scanRows_eq, hscan, addRows_append]
          cases streamPairs returnTypes stream <;> rfl
        · cases htail : streamPairs returnTypes stream with
          | error e =>
            rw [htail] at h
            cases h
          | ok tail =>
            rw [htail] at h
            cases h
            rw [hread tail htail]

namespace IcebergMultiFileList

/-- The list with more deletes. -/
def withDeletes (l : IcebergMultiFileList) (pairs : List (String × ℤ)) : IcebergMultiFileList :=
  { l with deleteData := addRows l.deleteData pairs }

/-- **One delete file**: its pairs are added, or the scan throws. -/
theorem scanDeleteFile_spec (ctx : ClientContext) (path : String) (l : IcebergMultiFileList) :
    scanDeleteFile ctx path l =
        ((deletePairs ctx path).map (fun _ => ()), l.withDeletes (filePairs ctx path)) ∧
      ∀ pairs, deletePairs ctx path = .ok pairs → filePairs ctx path = pairs := by
  unfold scanDeleteFile deletePairs filePairs
  cases ctx.parquetScan path with
  | error e => exact ⟨rfl, fun _ h => by cases h⟩
  | ok scan =>
    obtain ⟨hscan, hread⟩ := scanDeleteChunks_spec scan.returnTypes scan.stream l.deleteData
    exact ⟨by simp only [hscan]; rfl, hread⟩

/-! ### The delete files, one after the other -/

/-- The pairs in a delete file, and nothing if it cannot be read. -/
def pairsIn (ctx : ClientContext) (path : String) : List (String × ℤ) :=
  match deletePairs ctx path with
  | .ok pairs => pairs
  | .error _ => []

/-- The pairs in the delete files of these entries. -/
def pairsOf (ctx : ClientContext) (entries : List IcebergManifestEntry) : List (String × ℤ) :=
  entries.flatMap fun e => pairsIn ctx e.filePath

/-- The delete file can be read. -/
def CanScan (ctx : ClientContext) (e : IcebergManifestEntry) : Prop :=
  ∃ pairs, deletePairs ctx e.filePath = .ok pairs

/-- What `ScanDeleteFile` has been called for: all the files, or those up to the first that
cannot be read. -/
inductive Scans (ctx : ClientContext) (deleteFiles : List IcebergManifestEntry) :
    Except Error Unit → List IcebergManifestEntry → List (String × ℤ) → Prop
  | all (h : ∀ e ∈ deleteFiles, CanScan ctx e) :
    Scans ctx deleteFiles (.ok ()) deleteFiles (pairsOf ctx deleteFiles)
  | upTo (pre post : List IcebergManifestEntry) (e : IcebergManifestEntry) {err : Error}
    {added : List (String × ℤ)} (heq : deleteFiles = pre ++ e :: post)
    (hpre : ∀ x ∈ pre, CanScan ctx x) (he : deletePairs ctx e.filePath = .error err) :
    Scans ctx deleteFiles (.error err) (pre ++ [e]) added

/-- **The delete files** are read in order, up to the first that fails. -/
theorem scanDeleteFiles_spec (ctx : ClientContext) (deleteFiles : List IcebergManifestEntry)
    (l : IcebergMultiFileList) :
    ∃ res scanned added, scanDeleteFiles ctx deleteFiles l = ((res, l.withDeletes added), scanned) ∧
      Scans ctx deleteFiles res scanned added := by
  induction deleteFiles generalizing l with
  | nil => exact ⟨.ok (), [], [], rfl, .all (by simp)⟩
  | cons e deleteFiles ih =>
    obtain ⟨hfile, hfirst⟩ := scanDeleteFile_spec ctx e.filePath l
    cases he : deletePairs ctx e.filePath with
    | error err =>
      refine ⟨.error err, [e], filePairs ctx e.filePath, ?_, .upTo [] deleteFiles e rfl (by simp) he⟩
      simp only [scanDeleteFiles, hfile, he]
      rfl
    | ok pairs =>
      have hpairs := hfirst pairs he
      rw [hpairs] at hfile
      obtain ⟨res, scanned, added, hrest, hscans⟩ := ih (l.withDeletes pairs)
      have hcan : CanScan ctx e := ⟨_, he⟩
      have hall : scanDeleteFiles ctx (e :: deleteFiles) l =
          ((res, l.withDeletes (pairs ++ added)), e :: scanned) := by
        simp only [scanDeleteFiles, hfile, he, Except.map, hrest]
        simp only [withDeletes, addRows_append]
      refine ⟨res, e :: scanned, pairs ++ added, hall, ?_⟩
      cases hscans with
      | all h =>
        have hpairs : pairs ++ pairsOf ctx deleteFiles = pairsOf ctx (e :: deleteFiles) := by
          simp only [pairsOf, List.flatMap_cons, pairsIn, he]
        rw [hpairs]
        exact .all (List.forall_mem_cons.2 ⟨hcan, h⟩)
      | upTo pre post e' heq hpre he' =>
        exact .upTo (e :: pre) post e' (by rw [heq]; rfl) (List.forall_mem_cons.2 ⟨hcan, hpre⟩) he'

/-! ### Processing the deletes -/

/-- The lists differ at most in the delete reader and the delete cursor. -/
def MovedTo (l l' : IcebergMultiFileList) : Prop :=
  ∃ reader k, l' = { l with deleteManifestEntryReader := reader, currentDeleteManifest := k }

theorem MovedTo.trans {l₁ l₂ l₃ : IcebergMultiFileList} (h : MovedTo l₁ l₂) (h' : MovedTo l₂ l₃) :
    MovedTo l₁ l₃ := by
  obtain ⟨r, k, rfl⟩ := h
  obtain ⟨r', k', rfl⟩ := h'
  exact ⟨r', k', rfl⟩

section Collect

variable {ctx : ClientContext}

/-- Every round of the loop moves the delete cursor or leaves the list as it is. -/
theorem movedTo_mk (l : IcebergMultiFileList) (reader : Option ManifestReader) (k : ℕ) :
    MovedTo l { l with deleteManifestEntryReader := reader, currentDeleteManifest := k } :=
  ⟨reader, k, rfl⟩

/-- What a step of the loop leaves: it is left at its end or with an exception. -/
def RoundMoved (l : IcebergMultiFileList) :
    Loop.Step CollectState (Except Error Unit × CollectState) → Prop
  | .next st => MovedTo l st.1
  | .done (.ok _, st) => MovedTo l st.1 ∧ st.1.DeletesProcessed
  | .done (.error _, st) => MovedTo l st.1

theorem readDeleteFiles_moved (op : ManifestFormat IcebergManifestEntry) (r : ManifestReader)
    (st : CollectState) : RoundMoved st.1 (readDeleteFiles op r st) := by
  unfold readDeleteFiles
  rcases r.readEntries standardVectorSize (appendTo op) st.2 with ⟨e | n, r', deleteFiles⟩
  · exact movedTo_mk st.1 (some r') st.1.currentDeleteManifest
  · exact movedTo_mk st.1 (some r') _

variable (ctx) in
theorem collectRound_moved (st : CollectState) : RoundMoved st.1 (collectRound ctx st) := by
  have hsame : MovedTo st.1 st.1 :=
    movedTo_mk st.1 st.1.deleteManifestEntryReader st.1.currentDeleteManifest
  unfold collectRound
  split
  · rename_i hend
    exact ⟨hsame, List.getElem?_eq_none_iff.1 hend⟩
  · split
    · split_ifs
      · split
        · exact hsame
        · split
          · rename_i r _
            exact movedTo_mk st.1 (some r) st.1.currentDeleteManifest
          · exact readDeleteFiles_moved _ _ st
      · exact readDeleteFiles_moved _ _ st
    · exact hsame

/-- The loop moves the delete cursor, and is left without an exception at its end only. -/
theorem collect_moved (ctx : ClientContext) (l : IcebergMultiFileList) :
    MovedTo l (collect ctx l).2.1 ∧
      ((collect ctx l).1 = .ok () → (collect ctx l).2.1.DeletesProcessed) := by
  simp only [collect]
  generalize (l.deleteManifestEntryReader.elim 0 readFuel) +
    ((l.deleteManifests.drop l.currentDeleteManifest).map (manifestRounds ctx l)).sum + 1 = n
  cases hrun : Loop.run (collectRound ctx) n (l, []) with
  | none =>
    exact ⟨movedTo_mk l l.deleteManifestEntryReader l.currentDeleteManifest, fun h => by cases h⟩
  | some out =>
    have hleft : MovedTo l out.2.1 ∧ (out.1 = .ok () → out.2.1.DeletesProcessed) := by
      refine Loop.run_elim (fun _ => True)
        (fun st out => MovedTo st.1 out.2.1 ∧ (out.1 = .ok () → out.2.1.DeletesProcessed))
        ?_ ?_ trivial hrun
      · intro st out _ h
        have hmoved := collectRound_moved ctx st
        rw [h] at hmoved
        rcases out with ⟨e | u, l', deleteFiles⟩
        · exact ⟨hmoved, fun h => by cases h⟩
        · exact ⟨hmoved.1, fun _ => hmoved.2⟩
      · intro st st' _ h
        have hmoved := collectRound_moved ctx st
        rw [h] at hmoved
        exact ⟨trivial, fun out hout => ⟨MovedTo.trans hmoved hout.1, hout.2⟩⟩
    simpa using hleft

/-- **`ProcessDeletes`** throws what its first loop throws, or scans what it has collected. -/
theorem processDeletes_spec (ctx : ClientContext) (l : IcebergMultiFileList) :
    ∃ l₁ added res scanned, MovedTo l l₁ ∧
      processDeletes ctx l = ((res, l₁.withDeletes added), scanned) ∧
      ((∃ e, (collect ctx l).1 = .error e ∧ res = .error e ∧ scanned = []) ∨
        (collect ctx l).1 = .ok () ∧ l₁.DeletesProcessed ∧
          Scans ctx (collect ctx l).2.2 res scanned added) := by
  obtain ⟨hmoved, hend⟩ := collect_moved ctx l
  unfold processDeletes
  rcases hcollect : collect ctx l with ⟨e | u, l₁, deleteFiles⟩
  · rw [hcollect] at hmoved
    exact ⟨l₁, [], .error e, [], hmoved, rfl, Or.inl ⟨e, rfl, rfl, rfl⟩⟩
  · rw [hcollect] at hmoved hend
    obtain ⟨res, scanned, added, hscan, hscans⟩ := scanDeleteFiles_spec ctx deleteFiles l₁
    exact ⟨l₁, added, res, scanned, hmoved, hscan, Or.inr ⟨rfl, hend rfl, hscans⟩⟩

theorem processDeletes_of_ok {l : IcebergMultiFileList}
    (h : (processDeletes ctx l).1.1 = .ok ()) :
    processDeletes ctx l = ((.ok (), (processDeletes ctx l).1.2), (processDeletes ctx l).2) :=
  Prod.ext (Prod.ext h rfl) rfl

/-- A run of `ProcessDeletes` that completes has scanned all it has collected. -/
theorem processDeletes_completes {l l' : IcebergMultiFileList}
    {scanned : List IcebergManifestEntry}
    (h : processDeletes ctx l = ((.ok (), l'), scanned)) :
    (collect ctx l).1 = .ok () ∧ scanned = (collect ctx l).2.2 ∧ (∀ e ∈ scanned, CanScan ctx e) ∧
      l'.DeletesProcessed ∧ ∃ l₁, MovedTo l l₁ ∧ l' = l₁.withDeletes (pairsOf ctx scanned) := by
  obtain ⟨l₁, added, res, scanned', hmoved, hrun, hcases⟩ := processDeletes_spec ctx l
  rw [h] at hrun
  obtain ⟨⟨rfl, rfl⟩, rfl⟩ : (_ ∧ _) ∧ _ := by simpa only [Prod.mk.injEq] using hrun
  rcases hcases with ⟨e, -, hres, -⟩ | ⟨hok, hend, hscans⟩
  · cases hres
  · cases hscans with
    | all hcan => exact ⟨hok, rfl, hcan, hend, l₁, hmoved, rfl⟩

end Collect

/-! ### The rows that are taken out -/

/-- `FinalizeChunk` takes the rows out of every chunk of the file that are paired with its path. -/
def RemovesExactly (ctx : ClientContext) (l : IcebergMultiFileList) (fileId : ℕ) (path : String)
    (pairs : List (String × ℤ)) : Prop :=
  ∀ (ρ : Type) (rowId : ρ → ℤ) (chunk : List ρ),
    (finalizeChunk ctx fileId rowId chunk l).1 =
      .ok (chunk.filter fun x => (path, rowId x) ∉ pairs)

/-- The rows of a chunk that are left when its deletes are these. -/
theorem finalizeChunk_of_deletesOf {ρ : Type} {ctx : ClientContext} {l l' : IcebergMultiFileList}
    {fileId : ℕ} {dataFile : IcebergManifestEntry} (rowId : ρ → ℤ) (chunk : List ρ)
    (hfile : l.dataFiles[fileId]? = some dataFile)
    (h : deletesOf ctx dataFile.filePath l = (.ok (l'.getDeletesForFile dataFile.filePath), l')) :
    finalizeChunk ctx fileId rowId chunk l =
      (.ok (chunk.filter fun x => rowId x ∉ invalidRows l'.deleteData dataFile.filePath), l') := by
  cases hfind : l'.deleteData.find? dataFile.filePath with
  | none =>
    rw [getDeletesForFile, hfind] at h
    simp [finalizeChunk, hfile, h, invalidRows, hfind]
  | some deletes =>
    rw [getDeletesForFile, hfind] at h
    simp only [finalizeChunk, hfile, h, invalidRows, hfind, IcebergDeleteData.apply_eq_filter,
      Option.getD_some]

/-- Exactly the rows paired with the path are taken out when the map has exactly these. -/
theorem removesExactly_iff {ctx : ClientContext} {l l' : IcebergMultiFileList} {fileId : ℕ}
    {dataFile : IcebergManifestEntry} (hfile : l.dataFiles[fileId]? = some dataFile)
    (h : deletesOf ctx dataFile.filePath l = (.ok (l'.getDeletesForFile dataFile.filePath), l'))
    (pairs : List (String × ℤ)) :
    RemovesExactly ctx l fileId dataFile.filePath pairs ↔
      ∀ r, r ∈ invalidRows l'.deleteData dataFile.filePath ↔ (dataFile.filePath, r) ∈ pairs := by
  constructor
  · intro hexact r
    have hrow := hexact ℤ id [r]
    rw [finalizeChunk_of_deletesOf id [r] hfile h] at hrow
    have hiff := congrArg List.length (Except.ok.inj hrow)
    by_cases h1 : r ∈ invalidRows l'.deleteData dataFile.filePath <;>
      by_cases h2 : (dataFile.filePath, r) ∈ pairs <;> simp [h1, h2] at hiff ⊢
  · intro hiff ρ rowId chunk
    rw [finalizeChunk_of_deletesOf rowId chunk hfile h]
    simp only [hiff]

/-- **Position deletes** hit exactly the files they name, when no data file has the path of another
file that they name up to the case of letters, or is named for the same row itself. -/
theorem finalizeChunk_exact_iff {ctx : ClientContext} {l l' : IcebergMultiFileList}
    {scanned : List IcebergManifestEntry} (hnew : ¬ l.DeletesProcessed)
    (hempty : l.deleteData.entries = []) (hrun : processDeletes ctx l = ((.ok (), l'), scanned)) :
    (∀ (fileId : ℕ) (dataFile : IcebergManifestEntry), l.dataFiles[fileId]? = some dataFile →
      RemovesExactly ctx l fileId dataFile.filePath (pairsOf ctx scanned) ∧
        ∀ ctx', RemovesExactly ctx' l' fileId dataFile.filePath (pairsOf ctx scanned)) ↔
    ∀ dataFile ∈ l.dataFiles, ∀ p ∈ pairsOf ctx scanned,
      ciEquals p.1 dataFile.filePath → (dataFile.filePath, p.2) ∈ pairsOf ctx scanned := by
  obtain ⟨-, -, -, hend, l₁, ⟨reader, k, rfl⟩, hl'⟩ := processDeletes_completes hrun
  have hfiles : l'.dataFiles = l.dataFiles := by rw [hl']; rfl
  have hmem : ∀ f r, r ∈ invalidRows l'.deleteData f ↔
      ∃ g, ciEquals g f ∧ (g, r) ∈ pairsOf ctx scanned := by
    intro f r
    have hnone : l.deleteData.find? f = none := by rw [NormMap.find?, hempty]; rfl
    have hdata : l'.deleteData = addRows l.deleteData (pairsOf ctx scanned) := by rw [hl']; rfl
    rw [hdata, mem_invalidRows_addRows]
    simp [invalidRows, hnone]
  have hfirst : ∀ path, deletesOf ctx path l = (.ok (l'.getDeletesForFile path), l') := by
    intro path
    simp only [deletesOf, if_neg hnew, hrun]
  have hlater : ∀ ctx' path, deletesOf ctx' path l' = (.ok (l'.getDeletesForFile path), l') := by
    intro ctx' path
    rw [deletesOf, if_pos hend]
  constructor
  · rintro h dataFile hdataFile ⟨g, r⟩ hg hci
    obtain ⟨fileId, hfile⟩ := List.mem_iff_getElem?.1 hdataFile
    refine ((removesExactly_iff hfile (hfirst _) _).1 (h fileId dataFile hfile).1 r).1 ?_
    exact (hmem _ _).2 ⟨g, hci, hg⟩
  · intro h fileId dataFile hfile
    have hiff : ∀ r, r ∈ invalidRows l'.deleteData dataFile.filePath ↔
        (dataFile.filePath, r) ∈ pairsOf ctx scanned := by
      intro r
      rw [hmem]
      constructor
      · rintro ⟨g, hci, hg⟩
        exact h dataFile (List.mem_of_getElem? hfile) (g, r) hg hci
      · intro hr
        exact ⟨dataFile.filePath, rfl, hr⟩
    refine ⟨(removesExactly_iff hfile (hfirst _) _).2 hiff, fun ctx' => ?_⟩
    exact (removesExactly_iff (by rw [hfiles]; exact hfile) (hlater ctx' _) _).2 hiff

/-! ### A table with one delete file -/

/-- A manifest with these data files, and one with these delete files. -/
def dataAndDeletes (dataPaths : List String) (deletes : List IcebergManifestEntry) :
    List (IcebergManifest × List (List IcebergManifestEntry)) :=
  [(⟨"m.avro", 1, .data⟩, [dataPaths.map (.ofPath .added)]),
    (⟨"d.avro", 1, .delete⟩, [deletes])]

/-- The row 3 of a.parquet. -/
theorem deliverable_third : Deliverable [("a.parquet", 3)] := by decide

/-- The file d.parquet, with these pairs. -/
def onlyDeletes (pairs : List (String × ℤ)) (h : Deliverable pairs) (path : String) :
    Option ParquetScan :=
  if path = "d.parquet" then some (deleteScan pairs h) else none

/-- A table with these data files and a file of position deletes with these pairs. -/
def deleteTable (dataPaths : List String) (pairs : List (String × ℤ)) (h : Deliverable pairs) :
    TableFiles :=
  manifestFiles (dataAndDeletes dataPaths [.ofDeletes .positionDeletes "d.parquet"])
    (onlyDeletes pairs h)

/-- Its list of files, once they are all known. -/
def expandedList (ctx : ClientContext) : IcebergMultiFileList :=
  (getTotalFileCount ctx (ofPath "v1.metadata.json" {})).2

/-- The deletes of the only data file. -/
theorem finalizeChunk_exact_one_file :
    let ctx := (deleteTable ["a.parquet"] [("a.parquet", 3)] (by decide)).context
    RemovesExactly ctx (expandedList ctx) 0 "a.parquet"
      (pairsOf ctx (processDeletes ctx (expandedList ctx)).2) := by
  intro ctx
  have hok : (processDeletes ctx (expandedList ctx)).1.1 = .ok () := by decide +kernel
  have hfile : (expandedList ctx).dataFiles[0]? = some (.ofPath .added "a.parquet") := by
    decide +kernel
  have hexact := (finalizeChunk_exact_iff (l := expandedList ctx) (by decide +kernel)
    (by decide +kernel) (processDeletes_of_ok hok)).2 (by decide +kernel)
  exact (hexact 0 _ hfile).1

/-- Two data files whose paths differ in case: the deletes of one are taken out of the other. -/
theorem not_removesExactly_case :
    let ctx := (deleteTable ["a.parquet", "A.parquet"] [("a.parquet", 0)] (by decide)).context
    let scanned := (processDeletes ctx (expandedList ctx)).2
    (processDeletes ctx (expandedList ctx)).1.1 = .ok () ∧
      (expandedList ctx).dataFiles.map IcebergManifestEntry.filePath =
        ["a.parquet", "A.parquet"] ∧
      pairsOf ctx scanned = [("a.parquet", 0)] ∧
      ¬ RemovesExactly ctx (expandedList ctx) 1 "A.parquet" (pairsOf ctx scanned) := by
  intro ctx scanned
  have hpairs : pairsOf ctx scanned = [("a.parquet", 0)] := by decide +kernel
  refine ⟨by decide +kernel, by decide +kernel, hpairs, fun h => ?_⟩
  have hrow := h ℤ id [0]
  have hgone : (finalizeChunk ctx 1 id [0] (expandedList ctx)).1 = .ok [] := by decide +kernel
  rw [hgone, hpairs] at hrow
  simp at hrow

end IcebergMultiFileList

end DuckIceberg
