import DuckIceberg.Deletes
import DuckIceberg.ScanInto

/-!
# Collecting the delete files

The first loop of `ProcessDeletes` goes through the manifests and through the rows of each manifest
at the same time.  `collectFrom` takes one manifest after the other and reads it to its end.

* `collect_eq`: the loop does what `collectFrom` does, exceptions included;
* `collectFrom_delivered`: on manifests that are delivered without an exception it collects what
  reading to the end keeps;
* `delivered_of_collectFrom`: it succeeds on no other manifests.
-/

namespace DuckIceberg

open Strings Stride ManifestReader

namespace IcebergMultiFileList

/-! ### One manifest after the other -/

/-- What `ProcessDeletes` has done: its result, the reader, `delete_files`, and the number of
manifests that were read to their end. -/
abbrev Collected :=
  Except Error Unit × ManifestReader × List IcebergManifestEntry × ℕ

/-- The manifests, read one after the other. -/
def collectFrom (ctx : ClientContext) (path : String) (options : IcebergOptions)
    (op : ManifestFormat IcebergManifestEntry) :
    List IcebergManifest → ManifestReader → List IcebergManifestEntry → Collected
  | [], r, deleteFiles => (.ok (), r, deleteFiles, 0)
  | m :: ms, r, deleteFiles =>
    match scanInto ctx path options op r m.manifestPath deleteFiles with
    | (.error e, r, deleteFiles) => (.error e, r, deleteFiles, 0)
    | (.ok _, r, deleteFiles) =>
      match collectFrom ctx path options op ms r deleteFiles with
      | (res, r, deleteFiles, n) => (res, r, deleteFiles, n + 1)

/-- The list with its delete reader and its delete cursor here. -/
def withCursor (l : IcebergMultiFileList) (r : ManifestReader) (k : ℕ) : IcebergMultiFileList :=
  { l with deleteManifestEntryReader := some r, currentDeleteManifest := k }

theorem withCursor_self {l : IcebergMultiFileList} {r : ManifestReader}
    (h : l.deleteManifestEntryReader = some r) : l.withCursor r l.currentDeleteManifest = l := by
  rw [withCursor, ← h]

section Loops

variable {ctx : ClientContext} {op : ManifestFormat IcebergManifestEntry}
  {l : IcebergMultiFileList} {k : ℕ}

variable (ctx) in
/-- A round that begins in the middle of a manifest reads. -/
theorem collectRound_reading {m : IcebergManifest} (hp : l.entryProducer = some op)
    (hk : l.deleteManifests[k]? = some m) {r : ManifestReader} (hf : r.isFinished = false)
    (acc : List IcebergManifestEntry) :
    collectRound ctx (l.withCursor r k, acc) = readDeleteFiles op r (l.withCursor r k, acc) := by
  simp only [collectRound, withCursor, hk, hp, hf, Bool.false_eq_true, if_false]

variable (ctx l k) in
/-- What becomes of the loop once a manifest has been read this way. -/
def goOn (i : ℕ) :
    Except Error Unit × ManifestReader × List IcebergManifestEntry →
      Option (Except Error Unit × CollectState)
  | (.ok _, r, acc) => Loop.run (collectRound ctx) i (l.withCursor r (k + 1), acc)
  | (.error e, r, acc) => some (.error e, l.withCursor r k, acc)

/-- The rounds on one manifest read it to its end. -/
theorem run_collect_readAll {m : IcebergManifest} (hp : l.entryProducer = some op)
    (hk : l.deleteManifests[k]? = some m) {n : ℕ} {r : ManifestReader}
    {acc : List IcebergManifestEntry}
    {out : Except Error Unit × ManifestReader × List IcebergManifestEntry}
    (hf : r.isFinished = false) (h : Loop.run (readAllRound op) n (r, acc) = some out) :
    ∃ j, j ≤ n ∧ ∀ i, Loop.run (collectRound ctx) (j + i) (l.withCursor r k, acc) =
      goOn ctx l k i out := by
  induction n generalizing r acc with
  | zero => simp at h
  | succ n ih =>
    have hcollect := collectRound_reading ctx hp hk hf acc
    rw [readDeleteFiles] at hcollect
    rcases hread : r.readEntries standardVectorSize (appendTo op) acc with ⟨e | u, r₁, acc₁⟩
    · -- both loops leave with the exception
      have hall : readAllRound op (r, acc) = .done (.error e, r₁, acc₁) := by
        simp only [readAllRound, hf, hread, Bool.false_eq_true, if_false]
      simp only [hread] at hcollect
      rw [Loop.run_succ_done hall] at h
      cases h
      exact ⟨1, by omega, fun i => by rw [Nat.add_comm]; exact Loop.run_succ_done hcollect i⟩
    have hall : readAllRound op (r, acc) = .next (r₁, acc₁) := by
      simp only [readAllRound, hf, hread, Bool.false_eq_true, if_false]
    simp only [hread] at hcollect
    rw [Loop.run_succ_next hall] at h
    by_cases hf₁ : r₁.isFinished = true
    · -- the manifest is finished: one loop leaves, the other goes to the next manifest
      rw [if_pos hf₁] at hcollect
      obtain ⟨n, rfl⟩ : ∃ n', n = n' + 1 := by
        cases n with
        | zero => simp at h
        | succ n => exact ⟨n, rfl⟩
      have hleave : readAllRound op (r₁, acc₁) = .done (.ok (), r₁, acc₁) := by
        rw [readAllRound, if_pos hf₁]
      rw [Loop.run_succ_done hleave] at h
      cases h
      exact ⟨1, by omega, fun i => by rw [Nat.add_comm]; exact Loop.run_succ_next hcollect i⟩
    · rw [if_neg hf₁] at hcollect
      obtain ⟨j, hj, hrun⟩ := ih (by simpa using hf₁) h
      refine ⟨j + 1, by omega, fun i => ?_⟩
      rw [Nat.add_right_comm, ← hrun]
      exact Loop.run_succ_next hcollect (j + i)

theorem collectRound_end (hk : l.deleteManifests[k]? = none) (r : ManifestReader)
    (acc : List IcebergManifestEntry) :
    collectRound ctx (l.withCursor r k, acc) = .done (.ok (), l.withCursor r k, acc) := by
  simp only [collectRound, withCursor, hk]

variable (ctx) in
/-- A round that begins between two manifests opens the next one. -/
theorem collectRound_opens {m : IcebergManifest} (hp : l.entryProducer = some op)
    (hk : l.deleteManifests[k]? = some m) {r : ManifestReader} (hf : r.isFinished = true)
    (acc : List IcebergManifestEntry) :
    collectRound ctx (l.withCursor r k, acc) =
      match openAvro ctx l.path l.options m.manifestPath with
      | .error e => .done (.error e, l.withCursor r k, acc)
      | .ok scan =>
        match r.initializeWith scan with
        | (.error e, r) => .done (.error e, l.withCursor r k, acc)
        | (.ok _, r) => readDeleteFiles op r (l.withCursor r k, acc) := by
  simp only [collectRound, withCursor, hk, hp, hf, if_true]
  rfl

/-- A reader that was just given a scan has not finished. -/
theorem isFinished_installed {r r₁ : ManifestReader} {scan : AvroScan} {res : Except Error Unit}
    (hs : scan.finished = false) (h : r.initializeWith scan = (res, r₁)) :
    r₁.isFinished = false ∧ r₁.readFuel = (scan.stream.length + 1) * (standardVectorSize + 1) + 1 := by
  have hscan : r₁.scan = some scan := by
    have := (initializeWith_types r scan).2.1
    rwa [h] at this
  simp [isFinished, readFuel, hscan, hs]

variable (ctx) in
/-- The loop of `ProcessDeletes` between two manifests. -/
theorem run_collect (hp : l.entryProducer = some op) {ms : List IcebergManifest}
    {r : ManifestReader} (acc : List IcebergManifestEntry) {n : ℕ} (hr : r.ReaderOf op)
    (hf : r.isFinished = true) (hms : l.deleteManifests.drop k = ms)
    (hn : (ms.map (manifestRounds ctx l)).sum < n) :
    Loop.run (collectRound ctx) n (l.withCursor r k, acc) =
      match collectFrom ctx l.path l.options op ms r acc with
      | (res, r', acc', j) => some (res, l.withCursor r' (k + j), acc') := by
  induction ms generalizing r acc k n with
  | nil =>
    obtain ⟨n, rfl⟩ : ∃ n', n = n' + 1 := ⟨n - 1, by omega⟩
    have hend : l.deleteManifests[k]? = none := by simpa using hms
    exact Loop.run_succ_done (collectRound_end hend r acc) n
  | cons m ms ih =>
    have hlt : k < l.deleteManifests.length := by
      by_contra hge
      rw [List.drop_eq_nil_of_le (by omega)] at hms
      cases hms
    rw [List.drop_eq_getElem_cons hlt] at hms
    obtain ⟨hm, htail⟩ := List.cons.inj hms
    have hk : l.deleteManifests[k]? = some m := by rw [List.getElem?_eq_getElem hlt, hm]
    rw [List.map_cons, List.sum_cons, manifestRounds] at hn
    have hround := collectRound_opens ctx hp hk hf acc
    cases hopen : openAvro ctx l.path l.options m.manifestPath with
    | error e =>
      simp only [hopen] at hround hn
      obtain ⟨n, rfl⟩ : ∃ n', n = n' + 1 := ⟨n - 1, by omega⟩
      rw [Loop.run_succ_done hround]
      simp only [collectFrom, scanInto, hopen, Nat.add_zero]
    | ok scan =>
      simp only [hopen] at hround hn
      have hs := openAvro_unread hopen
      obtain ⟨n, rfl⟩ : ∃ n', n = n' + 1 := ⟨n - 1, by omega⟩
      rcases hinstall : r.initializeWith scan with ⟨e | u, r₁⟩
      · simp only [hinstall] at hround
        rw [Loop.run_succ_done hround]
        simp only [collectFrom, scanInto, hopen, hinstall, Nat.add_zero]
      simp only [hinstall] at hround
      obtain ⟨hf₁, hfuel⟩ := isFinished_installed hs hinstall
      obtain ⟨out, hout⟩ := readAll_returns (initializeWith_at hr hs hinstall).2.2 acc
      have hscan : scanInto ctx l.path l.options op r m.manifestPath acc = out := by
        simp only [scanInto, hopen, hinstall, readAll, hout, Option.getD_some]
      -- the round that opens the manifest is a round of the reader on it
      rw [Loop.run_succ_congr (hround.trans (collectRound_reading ctx hp hk hf₁ acc).symm)]
      obtain ⟨j, hj, hrun⟩ := run_collect_readAll (l := l) (k := k) hp hk hf₁ hout
      rw [hfuel] at hj
      rw [show n + 1 = j + (n + 1 - j) by omega, hrun, collectFrom, hscan]
      rcases out with ⟨e | u, r₂, acc₂⟩
      · rfl
      · obtain ⟨_, _, -, -, -, hread⟩ := readable_of_scanInto hr hscan
        rw [goOn, ih acc₂ hread.readerOf (isFinished_of_exhausted hread.exhausted) htail (by omega)]
        rcases hc : collectFrom ctx l.path l.options op ms r₂ acc₂ with ⟨res, r₃, acc₃, i⟩
        simp only [hc, Nat.add_assoc, Nat.add_comm 1 i]

/-- **The loop** over the delete manifests takes one after the other. -/
theorem collect_eq (hp : l.entryProducer = some op) {r : ManifestReader}
    (hreader : l.deleteManifestEntryReader = some r) (hr : r.ReaderOf op)
    (hf : r.isFinished = true) :
    collect ctx l =
      match collectFrom ctx l.path l.options op (l.deleteManifests.drop l.currentDeleteManifest)
        r [] with
      | (res, r', deleteFiles, n) =>
        (res, l.withCursor r' (l.currentDeleteManifest + n), deleteFiles) := by
  have hfuel := Nat.lt_succ_of_le (Nat.le_add_left
    ((l.deleteManifests.drop l.currentDeleteManifest).map (manifestRounds ctx l)).sum
    (l.deleteManifestEntryReader.elim 0 readFuel))
  have hrun := run_collect ctx hp [] hr hf rfl hfuel
  rw [withCursor_self hreader] at hrun
  simp only [collect]
  rw [hrun]
  rfl

end Loops

/-! ### Manifests that are delivered -/

/-- The manifest is opened and delivered without an exception into a chunk with the column types
`types`, and `chunks` are its entries. -/
def Delivered (ctx : ClientContext) (path : String) (options : IcebergOptions)
    (op : ManifestFormat IcebergManifestEntry) (types : List LogicalType) (m : IcebergManifest)
    (chunks : List (List IcebergManifestEntry)) : Prop :=
  ∃ scan, openAvro ctx path options m.manifestPath = .ok scan ∧ Readable op types scan chunks

/-- The column types of the first of the manifests, if it can be opened. -/
def firstLayout (ctx : ClientContext) (path : String) (options : IcebergOptions)
    (ms : List IcebergManifest) : List LogicalType :=
  match ms with
  | [] => []
  | m :: _ =>
    match openAvro ctx path options m.manifestPath with
    | .ok scan => scan.returnTypes
    | .error _ => []

/-- The column types that the chunk of a reader has while it reads the manifests. -/
def layoutFor (ctx : ClientContext) (path : String) (options : IcebergOptions)
    (r : ManifestReader) (ms : List IcebergManifest) : List LogicalType :=
  if r.scan.isNone then firstLayout ctx path options ms else r.chunk.types

/-- A reader between two manifests that leaves out deleted entries. -/
structure Idle (op : ManifestFormat IcebergManifestEntry) (r : ManifestReader) : Prop where
  readerOf : r.ReaderOf op
  skip_eq : r.skipDeleted = true
  finished : r.isFinished = true

section Delivered

variable {ctx : ClientContext} {path : String} {options : IcebergOptions}
  {op : ManifestFormat IcebergManifestEntry}

theorem Idle.read {r r' : ManifestReader} {scan : AvroScan} (hr : Idle op r)
    (h : ReadOut op r scan r') : Idle op r' :=
  ⟨h.readerOf, h.skip_eq.trans hr.skip_eq, isFinished_of_exhausted h.exhausted⟩

/-- The first manifest decides the layout. -/
theorem layoutFor_cons {r : ManifestReader} {m : IcebergManifest} {ms : List IcebergManifest}
    {scan : AvroScan} (hopen : openAvro ctx path options m.manifestPath = .ok scan) :
    layoutFor ctx path options r (m :: ms) = r.layout scan := by
  simp only [layoutFor, firstLayout, hopen, ManifestReader.layout]

/-- The layout stays as it is. -/
theorem layoutFor_next {r r' : ManifestReader} {scan : AvroScan} (h : ReadOut op r scan r')
    (ms : List IcebergManifest) : layoutFor ctx path options r' ms = r.layout scan := by
  rw [layoutFor, h.scan_ne_none, if_neg (by simp), h.types_eq]

/-- Manifests that are delivered are collected. -/
theorem collectFrom_delivered {ms : List IcebergManifest} {r : ManifestReader} (hr : Idle op r)
    {entries : IcebergManifest → List (List IcebergManifestEntry)}
    (h : ∀ m ∈ ms, Delivered ctx path options op (layoutFor ctx path options r ms) m (entries m))
    (acc : List IcebergManifestEntry) :
    ∃ r', collectFrom ctx path options op ms r acc =
        (.ok (), r', acc ++ ms.flatMap (fun m => keptEntries op true (entries m)), ms.length) ∧
      Idle op r' ∧ ∀ ms', layoutFor ctx path options r' ms' =
        if ms = [] then layoutFor ctx path options r ms' else layoutFor ctx path options r ms := by
  induction ms generalizing r acc with
  | nil => exact ⟨r, by simp [collectFrom], hr, fun _ => rfl⟩
  | cons m ms ih =>
    obtain ⟨scan, hopen, hread⟩ := h m List.mem_cons_self
    rw [layoutFor_cons hopen] at hread
    obtain ⟨r₁, hscan, hout⟩ := scanInto_of_readable hr.readerOf hopen hread acc
    rw [hr.skip_eq] at hscan
    have hlayout : ∀ ms', layoutFor ctx path options r₁ ms' =
        layoutFor ctx path options r (m :: ms) := by
      intro ms'
      rw [layoutFor_next hout, layoutFor_cons hopen]
    obtain ⟨r', hrest, hidle, hlay⟩ := ih (hr.read hout) (fun m' hm' => by
      rw [hlayout]
      exact h m' (List.mem_cons_of_mem _ hm')) (acc ++ keptEntries op true (entries m))
    refine ⟨r', ?_, hidle, fun ms' => ?_⟩
    · simp only [collectFrom, hscan, hrest, List.flatMap_cons, List.append_assoc,
        List.length_cons]
    · rw [hlay ms', if_neg (List.cons_ne_nil m ms)]
      split_ifs <;> exact hlayout _

/-- Manifests that are collected are delivered. -/
theorem delivered_of_collectFrom {ms : List IcebergManifest} {r r' : ManifestReader}
    (hr : Idle op r) {acc acc' : List IcebergManifestEntry} {n : ℕ}
    (h : collectFrom ctx path options op ms r acc = (.ok (), r', acc', n)) :
    ∀ m ∈ ms, ∃ chunks,
      Delivered ctx path options op (layoutFor ctx path options r ms) m chunks := by
  induction ms generalizing r acc n with
  | nil => simp
  | cons m ms ih =>
    rw [collectFrom] at h
    rcases hscan : scanInto ctx path options op r m.manifestPath acc with ⟨e | u, r₁, acc₁⟩
    · rw [hscan] at h
      cases h
    obtain ⟨scan, chunks, hopen, hread, -, hout⟩ := readable_of_scanInto hr.readerOf hscan
    rcases hrest : collectFrom ctx path options op ms r₁ acc₁ with ⟨res, r₂, acc₂, j⟩
    simp only [hscan, hrest, Prod.mk.injEq] at h
    obtain ⟨rfl, rfl, rfl, rfl⟩ := h
    have hlayout : layoutFor ctx path options r₁ ms = layoutFor ctx path options r (m :: ms) := by
      rw [layoutFor_next hout, layoutFor_cons hopen]
    rintro m' hm'
    rcases List.mem_cons.1 hm' with rfl | hm'
    · exact ⟨chunks, scan, hopen, by rw [layoutFor_cons hopen]; exact hread⟩
    · rw [← hlayout]
      exact ih (hr.read hout) hrest m' hm'

/-- Manifests that are collected, and then others. -/
theorem collectFrom_append {ms ms' : List IcebergManifest} {r r' : ManifestReader}
    {acc acc' : List IcebergManifestEntry} {n : ℕ}
    (h : collectFrom ctx path options op ms r acc = (.ok (), r', acc', n)) :
    collectFrom ctx path options op (ms ++ ms') r acc =
      match collectFrom ctx path options op ms' r' acc' with
      | (res, r'', acc'', j) => (res, r'', acc'', n + j) := by
  induction ms generalizing r acc n with
  | nil =>
    simp only [collectFrom, Prod.mk.injEq, true_and] at h
    obtain ⟨rfl, rfl, rfl⟩ := h
    simp
  | cons m ms ih =>
    rw [collectFrom] at h
    rw [List.cons_append, collectFrom]
    rcases hscan : scanInto ctx path options op r m.manifestPath acc with ⟨e | u, r₁, acc₁⟩
    · rw [hscan] at h
      cases h
    rcases hrest : collectFrom ctx path options op ms r₁ acc₁ with ⟨res, r₂, acc₂, j⟩
    simp only [hscan, hrest, Prod.mk.injEq] at h
    obtain ⟨rfl, rfl, rfl, rfl⟩ := h
    simp only [ih hrest]
    rcases collectFrom ctx path options op ms' r₂ acc₂ with ⟨res, r₃, acc₃, i⟩
    simp only [Nat.add_right_comm j i 1]

end Delivered

end IcebergMultiFileList

end DuckIceberg
