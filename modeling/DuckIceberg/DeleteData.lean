import DuckIceberg.DeleteFiles

/-!
# The rows that delete files name

`delete_data` after any delete files have been scanned, also when one of them throws.

* `find?_addRows`: what is found under a path depends only on which pairs were inserted;
* `deletes_inserted`: the scan inserts the pairs one by one under their own paths, so that neither
  the order of the rows or of the files nor the chunks they come in make a difference.
-/

namespace DuckIceberg

open Strings

/-! ### Insertion -/

/-- A path is found where a pair was inserted under it. -/
theorem isSome_find?_addRows (pairs : List (String × ℤ)) (deleteData : CIMap (Finset ℤ))
    (path : String) :
    ((addRows deleteData pairs).find? path).isSome ↔
      (deleteData.find? path).isSome ∨ ∃ p ∈ pairs, ciEquals p.1 path := by
  induction pairs generalizing deleteData with
  | nil => simp [addRows]
  | cons p pairs ih =>
    have hhead : ((addRow deleteData p.1 p.2).find? path).isSome ↔
        (deleteData.find? path).isSome ∨ ciEquals p.1 path := by
      rw [addRow, NormMap.find?_update, ciEquals]
      by_cases h : lower p.1 = lower path
      · simp [h]
      · simp [h]
    rw [addRows, List.foldl_cons, ← addRows, ih, hhead, or_assoc]
    simp

/-- **The order of insertions** and their number make no difference. -/
theorem find?_addRows (deleteData : CIMap (Finset ℤ)) {pairs pairs' : List (String × ℤ)}
    (h : ∀ p, p ∈ pairs ↔ p ∈ pairs') (path : String) :
    (addRows deleteData pairs).find? path = (addRows deleteData pairs').find? path := by
  have hrows : invalidRows (addRows deleteData pairs) path =
      invalidRows (addRows deleteData pairs') path := by
    ext r
    rw [mem_invalidRows_addRows, mem_invalidRows_addRows]
    simp only [h]
  have hsome : ((addRows deleteData pairs).find? path).isSome ↔
      ((addRows deleteData pairs').find? path).isSome := by
    rw [isSome_find?_addRows, isSome_find?_addRows]
    simp only [h]
  unfold invalidRows at hrows
  cases hfind : (addRows deleteData pairs).find? path with
  | none =>
    rw [hfind] at hsome
    have hnone : ¬ ((addRows deleteData pairs').find? path).isSome := fun hs => by
      cases hsome.2 hs
    rw [Option.not_isSome_iff_eq_none.1 hnone]
  | some rows =>
    rw [hfind] at hsome hrows
    obtain ⟨rows', hrows'⟩ := Option.isSome_iff_exists.1 (hsome.1 rfl)
    rw [hrows'] at hrows ⊢
    exact congrArg some hrows

/-! ### Delete files -/

namespace IcebergMultiFileList

/-- The pairs that are read from delete files, one after the other, up to the first that throws. -/
def scannedPairs (ctx : ClientContext) : List IcebergManifestEntry → List (String × ℤ)
  | [] => []
  | e :: entries =>
    match deletePairs ctx e.filePath with
    | .error _ => filePairs ctx e.filePath
    | .ok pairs => pairs ++ scannedPairs ctx entries

theorem withDeletes_append (l : IcebergMultiFileList) (pairs pairs' : List (String × ℤ)) :
    (l.withDeletes pairs).withDeletes pairs' = l.withDeletes (pairs ++ pairs') := by
  unfold withDeletes
  rw [addRows_append]

theorem scanDeleteFiles_list (ctx : ClientContext) (entries : List IcebergManifestEntry)
    (l : IcebergMultiFileList) :
    (scanDeleteFiles ctx entries l).1.2 = l.withDeletes (scannedPairs ctx entries) := by
  induction entries generalizing l with
  | nil => rfl
  | cons e entries ih =>
    obtain ⟨hfile, hpairs⟩ := scanDeleteFile_spec ctx e.filePath l
    rw [scanDeleteFiles, scannedPairs, hfile]
    cases he : deletePairs ctx e.filePath with
    | error err => rfl
    | ok pairs =>
      simp only [Except.map]
      rw [ih, hpairs pairs he, withDeletes_append]

/-- **Scanning delete files is plain insertion** of the pairs they hold, each under its own path;
so two sequences of delete files that hold the same pairs leave the same deletes for every file. -/
theorem deletes_inserted (ctx : ClientContext) (entries : List IcebergManifestEntry)
    (l : IcebergMultiFileList) :
    (scanDeleteFiles ctx entries l).1.2.deleteData =
        (scannedPairs ctx entries).foldl (fun m p => addRow m p.1 p.2) l.deleteData ∧
      ∀ (ctx' : ClientContext) (entries' : List IcebergManifestEntry),
        (∀ p, p ∈ scannedPairs ctx' entries' ↔ p ∈ scannedPairs ctx entries) → ∀ path,
          (scanDeleteFiles ctx' entries' l).1.2.getDeletesForFile path =
            (scanDeleteFiles ctx entries l).1.2.getDeletesForFile path := by
  rw [scanDeleteFiles_list]
  refine ⟨rfl, fun ctx' entries' h path => ?_⟩
  rw [scanDeleteFiles_list]
  exact find?_addRows l.deleteData h path

/-- A delete file whose rows go back and forth between two data files, in one chunk. -/
def mixedPairs : List (String × ℤ) := [("a", 0), ("b", 4), ("a", 2), ("A", 7), ("a", 0)]

/-- Its rows in another order, in two chunks. -/
def mixedScan : ParquetScan where
  returnTypes := [.simple .varchar, .simple .bigint]
  stream := (deleteScan [("b", 4), ("A", 7)] (by decide)).stream ++
    (deleteScan [("a", 2), ("a", 0)] (by decide)).stream

/-- A session that sees both. -/
def mixedContext : ClientContext :=
  (TableFiles.table [] fun path =>
    if path = "d.parquet" then some (deleteScan mixedPairs (by decide))
    else if path = "e.parquet" then some mixedScan
    else none).context

/-- Either of the files, or both of them twice. -/
theorem deletes_inserted_mixed :
    let one := [IcebergManifestEntry.ofPath .added "d.parquet"]
    let other := [IcebergManifestEntry.ofPath .added "e.parquet", .ofPath .added "d.parquet",
      .ofPath .added "e.parquet"]
    (scanDeleteFiles mixedContext other (ofPath "t" {})).1.2.getDeletesForFile "A" =
      (scanDeleteFiles mixedContext one (ofPath "t" {})).1.2.getDeletesForFile "A" := by
  intro one other
  have hone : scannedPairs mixedContext one = mixedPairs := by decide +kernel
  have hother : scannedPairs mixedContext other =
      [("b", 4), ("A", 7), ("a", 2), ("a", 0)] ++ mixedPairs ++
        [("b", 4), ("A", 7), ("a", 2), ("a", 0)] := by decide +kernel
  refine (deletes_inserted mixedContext one _).2 mixedContext other (fun p => ?_) "A"
  rw [hone, hother]
  simp only [mixedPairs, List.mem_append, List.mem_cons, List.not_mem_nil, or_false]
  tauto

end IcebergMultiFileList

end DuckIceberg
