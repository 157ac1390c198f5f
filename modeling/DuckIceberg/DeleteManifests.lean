import DuckIceberg.DeleteFiles

/-!
# Delete manifests

Which entries of the delete manifests `ProcessDeletes` calls `ScanDeleteFile` for, on a fresh list.

* `collect_recorded`: the entries it collects are those that reading each manifest to its end keeps;
* `processDeletes_scans_iff`: all live entries are among them exactly when no live entry lies beyond
  the rows that are offered;
* `processDeletes_respects_iff`: the content of an entry does not matter to it, so equality deletes
  are kept apart only where there are none or where an exception comes first.
-/

namespace DuckIceberg

open Strings Stride ManifestReader

namespace IcebergMultiFileList

section Recorded

variable {ctx : ClientContext} {path : String} {options : IcebergOptions}

/-- The delete manifests that the list has once it is initialised. -/
def Recorded.keptDeletes (t : Recorded ctx path options) : List IcebergManifest :=
  (kept standardVectorSize (fun _ => true) 0 t.chunks).filter (·.content != .data)

/-- The column types of the chunk that the delete manifests are read into. -/
def Recorded.deleteLayout (t : Recorded ctx path options) : List LogicalType :=
  firstLayout ctx path options t.keptDeletes

/-- The manifest is delivered without an exception into that chunk. -/
def Recorded.Delivers (t : Recorded ctx path options) (m : IcebergManifest) : Prop :=
  ∃ chunks, Delivered ctx path options t.entryOp t.deleteLayout m chunks

/-- The recorded entries of the manifest are those that are delivered, if it is. -/
def Recorded.Faithful (t : Recorded ctx path options) (m : IcebergManifest) : Prop :=
  ∀ chunks, Delivered ctx path options t.entryOp t.deleteLayout m chunks → chunks = t.entries m

/-- The live entries that reading the delete manifests to their ends keeps. -/
def Recorded.collected (t : Recorded ctx path options) : List IcebergManifestEntry :=
  t.keptDeletes.flatMap fun m => keptEntries t.entryOp true (t.entries m)

/-- A scan is delivered in one way. -/
theorem delivered_unique {op : ManifestFormat IcebergManifestEntry} {types : List LogicalType}
    {m : IcebergManifest} {chunks chunks' : List (List IcebergManifestEntry)}
    (h : Delivered ctx path options op types m chunks)
    (h' : Delivered ctx path options op types m chunks') : chunks = chunks' := by
  obtain ⟨scan, hopen, hread⟩ := h
  obtain ⟨scan', hopen', hread'⟩ := h'
  rw [hopen] at hopen'
  obtain rfl := Except.ok.inj hopen'
  have heq := hread.delivers.symm.trans hread'.delivers
  exact List.map_injective_iff.2 (fun _ _ h => Piece.rows.inj h) heq

theorem faithful_of_delivered {t : Recorded ctx path options} {m : IcebergManifest}
    (h : Delivered ctx path options t.entryOp t.deleteLayout m (t.entries m)) : t.Faithful m :=
  fun _ h' => delivered_unique h' h

/-- Manifests that can be read, with the same column types, are delivered. -/
theorem delivered_of_opens {t : Recorded ctx path options} (hopens : ∀ m ∈ t.keptDeletes, t.Opens m)
    (htypes : ∀ m ∈ t.keptDeletes, ∀ m' ∈ t.keptDeletes, t.types m = t.types m') :
    ∀ m ∈ t.keptDeletes,
      Delivered ctx path options t.entryOp t.deleteLayout m (t.entries m) := by
  intro m hm
  obtain ⟨scan, hopen, hscan, hread⟩ := hopens m hm
  have hlayout : t.deleteLayout = t.types m := by
    rw [Recorded.deleteLayout]
    cases hlist : t.keptDeletes with
    | nil =>
      rw [hlist] at hm
      cases hm
    | cons m' ms =>
      have hm' : m' ∈ t.keptDeletes := by rw [hlist]; exact List.mem_cons_self
      obtain ⟨scan', hopen', hscan', -⟩ := hopens m' hm'
      simp only [firstLayout, hopen', hscan']
      exact htypes m' hm' m hm
  exact ⟨scan, hopen, by rw [hlayout]; exact hread⟩

theorem mem_flatten_of_mem_keptDeletes {t : Recorded ctx path options} {m : IcebergManifest}
    (h : m ∈ t.keptDeletes) : m ∈ t.chunks.flatten :=
  (kept_sublist _ _ _ _).subset (List.mem_of_mem_filter h)

theorem keptEntries_live (t : Recorded ctx path options) (m : IcebergManifest) :
    keptEntries t.entryOp true (t.entries m) =
      (kept standardVectorSize IcebergManifestEntry.live 0 (t.entries m)).filter
        IcebergManifestEntry.live := by
  rw [keptEntries, formats_live t.supported]

theorem keptEntries_sublist (t : Recorded ctx path options) (m : IcebergManifest) :
    (keptEntries t.entryOp true (t.entries m)).Sublist
      ((t.entries m).flatten.filter IcebergManifestEntry.live) := by
  rw [keptEntries_live]
  exact (kept_sublist _ _ _ _).filter _

/-- The delete manifests that the list has hold all live entries exactly when none is in a manifest that
was passed over. -/
theorem live_keptDeletes_iff (t : Recorded ctx path options) :
    t.live t.keptDeletes = t.live t.deleteManifests ↔
      ∀ m ∈ t.passedOver, m.content ≠ .data → ∀ e ∈ (t.entries m).flatten, e.live = false := by
  unfold Recorded.live Recorded.keptDeletes Recorded.deleteManifests
  rw [kept_flatMap_eq_iff]
  simp only [Recorded.passedOver, bne_iff_ne, List.filter_eq_nil_iff, Bool.not_eq_true]

/-- All live entries are collected exactly when none is passed over. -/
theorem collected_eq_iff (t : Recorded ctx path options) :
    t.collected = t.live t.deleteManifests ↔
      (∀ m ∈ t.passedOver, m.content ≠ .data →
        ∀ e ∈ (t.entries m).flatten, e.live = false) ∧
      ∀ m ∈ t.keptDeletes, ∀ pre p post, t.entries m = pre ++ p :: post →
        ∀ e ∈ p.drop (standardVectorSize -
          pre.flatten.countP IcebergManifestEntry.live % standardVectorSize), e.live = false := by
  set f : IcebergManifest → List IcebergManifestEntry := fun m =>
    (t.entries m).flatten.filter IcebergManifestEntry.live
  have hentries := flatMap_eq_iff_of_sublist (l := t.keptDeletes)
    (fun m _ => keptEntries_sublist t m)
  -- the entries of a manifest
  have hone : ∀ m, keptEntries t.entryOp true (t.entries m) = f m ↔
      ∀ pre p post, t.entries m = pre ++ p :: post →
        ∀ e ∈ p.drop (standardVectorSize -
          pre.flatten.countP IcebergManifestEntry.live % standardVectorSize), e.live = false := by
    intro m
    rw [keptEntries_live, kept_filter_eq_iff, lost_live_iff 0 (by decide)]
    simp only [Nat.zero_add]
  have hkept : (t.live t.keptDeletes).Sublist (t.live t.deleteManifests) :=
    ((kept_sublist standardVectorSize (fun _ => true) 0 t.chunks).filter
      fun m : IcebergManifest => m.content != .data).flatMap f
  have hcollected : t.collected.Sublist (t.live t.keptDeletes) :=
    List.Sublist.flatMap_right _ fun m _ => keptEntries_sublist t m
  rw [← live_keptDeletes_iff]
  simp only [← hone]
  rw [← hentries]
  constructor
  · intro h
    have heq : t.live t.keptDeletes = t.live t.deleteManifests :=
      hkept.antisymm (by rw [← h]; exact hcollected)
    exact ⟨heq, h.trans heq.symm⟩
  · rintro ⟨h1, h2⟩
    exact h2.trans h1

/-! ### A fresh list -/

/-- **The delete files that are collected** on a fresh list. -/
theorem collect_recorded (t : Recorded ctx path options) {l : IcebergMultiFileList}
    (hfaithful : ∀ m ∈ t.keptDeletes, t.Faithful m)
    (hinit : initializeFiles ctx (ofPath path options) = (.ok (), l)) :
    ((collect ctx l).1 = .ok () ↔ ∀ m ∈ t.keptDeletes, t.Delivers m) ∧
      ((collect ctx l).1 = .ok () → (collect ctx l).2.2 = t.collected) := by
  obtain ⟨r, hrecorded⟩ := initializeFiles_recorded t
  rw [hrecorded] at hinit
  obtain ⟨-, rfl⟩ := Prod.mk.inj hinit
  set l := initializedWith (ofPath path options) t.snapshot t.manifestOp t.entryOp r
    (kept standardVectorSize (fun _ => true) 0 t.chunks)
  set r₀ : ManifestReader := { make t.entryOp with skipDeleted := true } with hr₀
  have hidle : Idle t.entryOp r₀ := ⟨⟨rfl, rfl⟩, rfl, rfl⟩
  have hcollect : collect ctx l = _ := collect_eq rfl rfl hidle.readerOf hidle.finished
  have hdrop : l.deleteManifests.drop l.currentDeleteManifest = t.keptDeletes := rfl
  have hlayout : layoutFor ctx path options r₀ t.keptDeletes = t.deleteLayout := rfl
  rw [hdrop] at hcollect
  have hforward : (collect ctx l).1 = .ok () → ∀ m ∈ t.keptDeletes, t.Delivers m := by
    intro hok
    rcases hfrom : collectFrom ctx l.path l.options t.entryOp t.keptDeletes r₀ [] with
      ⟨res, r', acc, n⟩
    rw [hcollect, hfrom] at hok
    obtain rfl : res = .ok () := hok
    exact delivered_of_collectFrom hidle hfrom
  have hbackward : (∀ m ∈ t.keptDeletes, t.Delivers m) →
      (collect ctx l).1 = .ok () ∧ (collect ctx l).2.2 = t.collected := by
    intro hdel
    have hdelivered : ∀ m ∈ t.keptDeletes, Delivered ctx path options t.entryOp
        (layoutFor ctx path options r₀ t.keptDeletes) m (t.entries m) := by
      intro m hm
      obtain ⟨chunks, hchunks⟩ := hdel m hm
      rw [← hfaithful m hm chunks hchunks]
      exact hchunks
    obtain ⟨r', hfrom, -⟩ := collectFrom_delivered hidle hdelivered []
    have hfrom' : collectFrom ctx l.path l.options t.entryOp t.keptDeletes r₀ [] =
      (.ok (), r', [] ++ t.collected, t.keptDeletes.length) := hfrom
    rw [hcollect, hfrom']
    exact ⟨rfl, rfl⟩
  exact ⟨⟨hforward, fun h => (hbackward h).1⟩, fun h => (hbackward (hforward h)).2⟩

/-- **Main result.** A run of `ProcessDeletes` that completes has called `ScanDeleteFile` for all live
entries of all delete manifests, once each and in order, exactly when no live entry is passed
over. -/
theorem processDeletes_scans_iff (t : Recorded ctx path options) {l l' : IcebergMultiFileList}
    {scanned : List IcebergManifestEntry} (hfaithful : ∀ m ∈ t.keptDeletes, t.Faithful m)
    (hinit : initializeFiles ctx (ofPath path options) = (.ok (), l))
    (hrun : processDeletes ctx l = ((.ok (), l'), scanned)) :
    scanned = t.live t.deleteManifests ↔
      (∀ m ∈ t.passedOver, m.content ≠ .data →
        ∀ e ∈ (t.entries m).flatten, e.live = false) ∧
      ∀ m ∈ t.keptDeletes, ∀ pre p post, t.entries m = pre ++ p :: post →
        ∀ e ∈ p.drop (standardVectorSize -
          pre.flatten.countP IcebergManifestEntry.live % standardVectorSize), e.live = false := by
  obtain ⟨hok, hscanned, -⟩ := processDeletes_completes hrun
  rw [← collected_eq_iff, hscanned, (collect_recorded t hfaithful hinit).2 hok]

/-! ### Content types -/

end Recorded

/-! ### Tables with one delete manifest -/

/-- Files whose manifests can all be read are delivered as they are recorded. -/
theorem recordedOf_faithful {manifests : List (IcebergManifest × List (List IcebergManifestEntry))}
    (parquet : String → Option ParquetScan) (hd : Deliverable (manifests.map Prod.fst))
    (hw : ∀ m ∈ manifests, m.1.Writable)
    (hpaths : ("snap-1.avro" :: manifests.map (·.1.manifestPath)).Nodup)
    (hentries : ∀ m ∈ manifests, ∀ es ∈ m.2, Deliverable es ∧ ∀ e ∈ es, e.Writable) :
    ∀ m ∈ (recordedOf manifests parquet hd hw).keptDeletes,
      Delivered (manifestFiles manifests parquet).context "v1.metadata.json" {}
        icebergManifestEntryV2 (recordedOf manifests parquet hd hw).deleteLayout m
        ((recordedOf manifests parquet hd hw).entries m) := by
  refine delivered_of_opens (fun m hm => ?_) fun _ _ _ _ => rfl
  refine recordedOf_opens parquet hd hw hpaths hentries m ?_
  simpa [recordedOf] using mem_flatten_of_mem_keptDeletes hm

/-- A table with two delete files, one of which was removed. -/
def oneRemoved : List (IcebergManifest × List (List IcebergManifestEntry)) :=
  dataAndDeletes ["a.parquet"] [⟨.deleted, .positionDeletes, "old.parquet", "PARQUET", 1⟩,
    .ofDeletes .positionDeletes "d.parquet"]

/-- The files of this table; the delete file that was removed is gone. -/
def oneRemovedFiles : TableFiles :=
  manifestFiles oneRemoved (onlyDeletes [("a.parquet", 3)] deliverable_third)

/-- What they record. -/
def oneRemovedTable : Recorded oneRemovedFiles.context "v1.metadata.json" {} :=
  recordedOf oneRemoved _ (by decide) (by decide)

/-- A fresh list of a table, initialised. -/
def initializedList (ctx : ClientContext) : IcebergMultiFileList :=
  (initializeFiles ctx (ofPath "v1.metadata.json" {})).2

theorem oneRemoved_faithful : ∀ m ∈ oneRemovedTable.keptDeletes, oneRemovedTable.Faithful m :=
  fun m hm => faithful_of_delivered
    (recordedOf_faithful _ (by decide) (by decide) (by decide) (by decide) m hm)

theorem initializedList_eq {ctx : ClientContext}
    (h : (initializeFiles ctx (ofPath "v1.metadata.json" {})).1 = .ok ()) :
    initializeFiles ctx (ofPath "v1.metadata.json" {}) = (.ok (), initializedList ctx) :=
  Prod.ext h rfl

theorem oneRemoved_initializes : initializeFiles oneRemovedFiles.context
    (ofPath "v1.metadata.json" {}) = (.ok (), initializedList oneRemovedFiles.context) :=
  initializedList_eq (by decide +kernel)

/-- The delete file that was not removed is the one that is scanned. -/
theorem processDeletes_scans_one_removed :
    (processDeletes oneRemovedFiles.context (initializedList oneRemovedFiles.context)).2 =
      oneRemovedTable.live oneRemovedTable.deleteManifests := by
  have hok : (processDeletes oneRemovedFiles.context
      (initializedList oneRemovedFiles.context)).1.1 = .ok () := by
    decide +kernel
  refine (processDeletes_scans_iff oneRemovedTable oneRemoved_faithful oneRemoved_initializes
    (processDeletes_of_ok hok)).2 ⟨?_, ?_⟩
  · have hnone : oneRemovedTable.passedOver = [] := by decide +kernel
    simp [hnone]
  · have hlost : ∀ m ∈ oneRemovedTable.keptDeletes,
        ∀ e ∈ lost standardVectorSize IcebergManifestEntry.live 0 (oneRemovedTable.entries m),
          e.live = false := by
      decide +kernel
    intro m hm
    simpa only [Nat.zero_add] using (lost_live_iff 0 (by decide) _).1 (hlost m hm)

/-- The delete file with this number. -/
def deleteFile (i : ℕ) : IcebergManifestEntry :=
  .ofDeletes .positionDeletes ("d" ++ toString i ++ ".parquet")

/-- A delete manifest that delivers one delete file, and then `n` more. -/
def manyDeletes (n : ℕ) : List (IcebergManifest × List (List IcebergManifestEntry)) :=
  [(⟨"d.avro", 1, .delete⟩, [[deleteFile 0], (List.range n).map fun i => deleteFile (i + 1)])]

/-- Every one of these files is there, and empty. -/
def emptyDeletes (_ : String) : Option ParquetScan :=
  some ⟨[.simple .varchar, .simple .bigint], []⟩

/-- The files of this table. -/
def manyDeletesFiles (n : ℕ) : TableFiles := manifestFiles (manyDeletes n) emptyDeletes

/-- What they record. -/
def manyDeletesTable (n : ℕ) : Recorded (manyDeletesFiles n).context "v1.metadata.json" {} :=
  recordedOf (manyDeletes n) emptyDeletes ⟨Nat.one_pos, by simp [manyDeletes, standardVectorSize]⟩
    (by simp [manyDeletes, IcebergManifest.Writable, IcebergManifestContentType.toInt32,
      IcebergManifestContentType.ofInt32, toUInt8])

theorem manyDeletes_delivered {n : ℕ} (hpos : 0 < n) (hle : n ≤ standardVectorSize) :
    ∀ m ∈ (manyDeletesTable n).keptDeletes,
      Delivered (manyDeletesFiles n).context "v1.metadata.json" {} icebergManifestEntryV2
        (manyDeletesTable n).deleteLayout m ((manyDeletesTable n).entries m) := by
  refine recordedOf_faithful emptyDeletes _ _ (by simp [manyDeletes]) ?_
  intro m hm es hes
  obtain rfl := List.mem_singleton.1 hm
  have hwritable : ∀ i, (deleteFile i).Writable := fun i => ⟨rfl, rfl⟩
  rcases List.mem_cons.1 hes with rfl | hes
  · exact ⟨by decide, by simpa using hwritable 0⟩
  · obtain rfl := List.mem_singleton.1 hes
    refine ⟨by simpa [Deliverable] using ⟨hpos, hle⟩, fun e he => ?_⟩
    obtain ⟨i, -, rfl⟩ := List.mem_map.1 he
    exact hwritable (i + 1)

/-- `ProcessDeletes` scans the delete files it has collected. -/
theorem processDeletes_many {n : ℕ} {ctx : ClientContext} (hctx : (manyDeletesFiles n).context = ctx)
    (hpos : 0 < n) (hle : n ≤ standardVectorSize) :
    (processDeletes ctx (initializedList ctx)).1.1 = .ok () ∧
      (processDeletes ctx (initializedList ctx)).2 = (manyDeletesTable n).collected := by
  subst hctx
  have hinit : initializeFiles (manyDeletesFiles n).context (ofPath "v1.metadata.json" {}) =
      (.ok (), initializedList (manyDeletesFiles n).context) := by
    obtain ⟨r, h⟩ := initializeFiles_recorded (manyDeletesTable n)
    exact initializedList_eq (by rw [h])
  obtain ⟨hok, hcollected⟩ := collect_recorded (manyDeletesTable n)
    (fun m hm => faithful_of_delivered (manyDeletes_delivered hpos hle m hm)) hinit
  have hread := hok.2 fun m hm => ⟨_, manyDeletes_delivered hpos hle m hm⟩
  obtain ⟨l₁, added, res, scanned, -, hrun, hcases⟩ :=
    processDeletes_spec (manyDeletesFiles n).context
      (initializedList (manyDeletesFiles n).context)
  rw [hrun]
  dsimp only
  rcases hcases with ⟨e, hfail, -⟩ | ⟨-, -, hscans⟩
  · rw [hread] at hfail
    cases hfail
  · cases hscans with
    | upTo pre post e heq hpre he => cases he
    | all hcan => exact ⟨rfl, hcollected hread⟩

/-- With one delete file more than `n` and `n` rows in a vector, the last one is lost. -/
theorem manyDeletes_loses_last {n : ℕ} (hn : n = standardVectorSize) :
    ∀ ctx, (manyDeletesFiles n).context = ctx →
      (processDeletes ctx (initializedList ctx)).1.1 = .ok () ∧
        (processDeletes ctx (initializedList ctx)).2 ≠
          (manyDeletesTable n).live (manyDeletesTable n).deleteManifests := by
  intro ctx hctx
  have hsize : standardVectorSize = 2048 := rfl
  obtain ⟨hok, hscanned⟩ := processDeletes_many hctx (by omega) hn.le
  refine ⟨hok, ?_⟩
  rw [hscanned, Ne, collected_eq_iff]
  rintro ⟨-, hlost⟩
  have hm : (⟨"d.avro", 1, .delete⟩ : IcebergManifest) ∈ (manyDeletesTable n).keptDeletes := by
    simp [Recorded.keptDeletes, manyDeletesTable, recordedOf, manyDeletes, kept, hsize]
  have hentries : (manyDeletesTable n).entries ⟨"d.avro", 1, .delete⟩ = [[deleteFile 0]] ++
      ((List.range n).map fun i => deleteFile (i + 1)) :: [] := by
    simp [manyDeletesTable, recordedOf, manyDeletes]
  have hlast := hlost _ hm _ _ _ hentries (deleteFile n)
  have hmem : deleteFile n ∈ ((List.range n).map fun i => deleteFile (i + 1)).drop
      (standardVectorSize - 1 % standardVectorSize) := by
    rw [List.mem_iff_getElem?]
    refine ⟨0, ?_⟩
    rw [List.getElem?_drop, List.getElem?_map, List.getElem?_range (by rw [hn, hsize]; decide)]
    have hlt : standardVectorSize - 1 % standardVectorSize + 0 + 1 = n := by
      rw [hn, hsize]
    simp [hlt]
  cases hlast hmem

/-- With 2049 delete files, the last one is not scanned. -/
theorem not_scans_last_delete_file :
    let ctx := (manyDeletesFiles standardVectorSize).context
    let t := manyDeletesTable standardVectorSize
    (processDeletes ctx (initializedList ctx)).1.1 = .ok () ∧
      (processDeletes ctx (initializedList ctx)).2 ≠ t.live t.deleteManifests :=
  manyDeletes_loses_last rfl _ rfl

end IcebergMultiFileList

end DuckIceberg
