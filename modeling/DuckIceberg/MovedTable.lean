import DuckIceberg.MovedPaths
import DuckIceberg.OpenedFiles

/-!
# A table that was moved

The directory of a table is moved from one root to another, and is scanned with `allow_moved_paths`.
The metadata file is found below the root that is scanned, so the same snapshot is selected
(`select_agrees`), and every recorded path is opened as one below the new root as long as it is cut at
the old one (`openAvro_logs`).
-/

namespace DuckIceberg

open Strings IcebergUtils IcebergMultiFileList MovedPaths Mirror

namespace MovedTable

variable {ρ : Type} {ctx ctx' : ClientContext} {files files' : DataFileScan ρ}
  {oldRoot newRoot : String} {options : IcebergOptions} {s : String}

/-- The directory of a table was moved from the old root to the new one: what is under the one is
under the other, and nothing else of the session is different.  A path that is empty, or ends in
`.json`, is not that of a directory. -/
structure Moved (ctx ctx' : ClientContext) (files files' : DataFileScan ρ)
    (oldRoot newRoot : String) : Prop where
  /-- `FileSystem::JoinPath`, which gives `b` alone for an empty `a` -/
  joinPath : ∀ a b, a ≠ "" → ctx.joinPath a b = a ++ "/" ++ b
  oldRoot_ne : oldRoot ≠ ""
  newRoot_ne : newRoot ≠ ""
  session : ctx' = { ctx with
    fileExists := ctx'.fileExists, readFile := ctx'.readFile, glob := ctx'.glob
    readAvro := ctx'.readAvro, parquetScan := ctx'.parquetScan }
  oldDirectory : endsWith oldRoot ".json" = false
  newDirectory : endsWith newRoot ".json" = false
  fileExists : ∀ s, Agree Eq (ctx.fileExists (recorded oldRoot s))
    (ctx'.fileExists (recorded newRoot s))
  readFile : ∀ s, Agree Eq (ctx.readFile (recorded oldRoot s)) (ctx'.readFile (recorded newRoot s))
  glob : ∀ s, Agree
    (fun found found' => ∃ below : List String,
      found = below.map (recorded oldRoot) ∧ found' = below.map (recorded newRoot))
    (ctx.glob (recorded oldRoot s)) (ctx'.glob (recorded newRoot s))
  readAvro : ∀ s, Agree Eq (ctx.readAvro (recorded oldRoot s)) (ctx'.readAvro (recorded newRoot s))
  parquetScan : ∀ s, Agree Eq (ctx.parquetScan (recorded oldRoot s))
    (ctx'.parquetScan (recorded newRoot s))
  chunks : ∀ s, Agree Eq (files.chunks (recorded oldRoot s)) (files'.chunks (recorded newRoot s))
  rowId : files'.rowId = files.rowId

/-- The options of the scan of the moved table. -/
def movedOptions (options : IcebergOptions) : IcebergOptions :=
  { options with allowMovedPaths := true }

/-- The paths are those of one file below the two roots. -/
def SamePlace (oldRoot newRoot path path' : String) : Prop :=
  ∃ s, path = recorded oldRoot s ∧ path' = recorded newRoot s

theorem recorded_append (root s t : String) :
    recorded root s ++ "/" ++ t = recorded root (s ++ "/" ++ t) := by
  unfold recorded
  simp only [String.append_assoc]

theorem recorded_inj {root s t : String} (h : recorded root s = recorded root t) : s = t := by
  rw [← String.toList_inj, toList_recorded, toList_recorded] at h
  rw [← String.toList_inj]
  exact (List.cons.inj (List.append_cancel_left h)).2

theorem recorded_ne_empty (root s : String) : recorded root s ≠ "" := by
  rw [Ne, ← String.toList_inj, toList_recorded]
  simp

/-- One path is not that of a file below two roots. -/
theorem eq_of_samePlace {path : String} (h : SamePlace oldRoot newRoot path path) :
    oldRoot = newRoot := by
  obtain ⟨s, h, h'⟩ := h
  rw [h, ← String.toList_inj, toList_recorded, toList_recorded] at h'
  rw [← String.toList_inj]
  exact List.append_cancel_right h'

/-- What a path ends in is below the root when it has no slash. -/
theorem endsWith_recorded {pat : String} (hpat : '/' ∉ pat.toList) (root s : String) :
    endsWith (recorded root s) pat = endsWith s pat := by
  unfold endsWith
  rw [Bool.eq_iff_iff, List.isSuffixOf_iff_suffix, List.isSuffixOf_iff_suffix, toList_recorded]
  refine ⟨fun h => ?_, fun h => (h.trans (List.suffix_cons _ _)).trans (List.suffix_append _ _)⟩
  rw [← List.reverse_prefix] at h ⊢
  rw [List.reverse_append, List.reverse_cons, List.append_assoc] at h
  exact prefix_of_prefix_append (by simpa using hpat) h

theorem recorded_lt_iff (root s t : String) : recorded root s < recorded root t ↔ s < t := by
  rw [String.lt_iff, String.lt_iff, toList_recorded, toList_recorded]
  induction root.toList with
  | nil => exact List.cons_lt_cons_self
  | cons c cs ih =>
    rw [List.cons_append, List.cons_append, List.cons_lt_cons_self]
    exact ih

/-- The greatest of the paths is that of the same file. -/
theorem pickTableVersion_recorded (oldRoot newRoot : String) (below : List String) :
    (IcebergSnapshot.pickTableVersion (below.map (recorded oldRoot)) = "" ∧
        IcebergSnapshot.pickTableVersion (below.map (recorded newRoot)) = "") ∨
      ∃ s, IcebergSnapshot.pickTableVersion (below.map (recorded oldRoot)) = recorded oldRoot s ∧
        IcebergSnapshot.pickTableVersion (below.map (recorded newRoot)) = recorded newRoot s := by
  have hpos : ∀ root s, "" < recorded root s := by
    intro root s
    rw [String.lt_iff, toList_recorded]
    cases root.toList <;> exact List.nil_lt_cons _ _
  unfold IcebergSnapshot.pickTableVersion
  induction below using List.reverseRecOn with
  | nil => exact Or.inl ⟨rfl, rfl⟩
  | append_singleton below t ih =>
    simp only [List.map_append, List.map_cons, List.map_nil, List.foldl_append, List.foldl_cons,
      List.foldl_nil]
    rcases ih with ⟨hold, hnew⟩ | ⟨s, hold, hnew⟩
    · rw [hold, hnew, if_pos (hpos _ _), if_pos (hpos _ _)]
      exact Or.inr ⟨t, rfl, rfl⟩
    · -- below one root, the paths are in the order of what follows it
      rw [hold, hnew]
      refine Or.inr ?_
      by_cases hlt : s < t
      · rw [if_pos ((recorded_lt_iff _ _ _).2 hlt), if_pos ((recorded_lt_iff _ _ _).2 hlt)]
        exact ⟨t, rfl, rfl⟩
      · rw [if_neg (mt (recorded_lt_iff _ _ _).1 hlt), if_neg (mt (recorded_lt_iff _ _ _).1 hlt)]
        exact ⟨s, rfl, rfl⟩

namespace Moved

variable (h : Moved ctx ctx' files files' oldRoot newRoot)

include h

theorem joinPath_oldRoot (s : String) : ctx.joinPath oldRoot s = recorded oldRoot s :=
  h.joinPath oldRoot s h.oldRoot_ne

theorem joinPath_newRoot (s : String) : ctx'.joinPath newRoot s = recorded newRoot s := by
  rw [h.session]
  exact h.joinPath newRoot s h.newRoot_ne

theorem joinPath_old (s t : String) :
    ctx.joinPath (recorded oldRoot s) t = recorded oldRoot (s ++ "/" ++ t) :=
  (h.joinPath _ t (recorded_ne_empty oldRoot s)).trans (recorded_append oldRoot s t)

theorem joinPath_new (s t : String) :
    ctx'.joinPath (recorded newRoot s) t = recorded newRoot (s ++ "/" ++ t) := by
  rw [h.session]
  exact (h.joinPath _ t (recorded_ne_empty newRoot s)).trans (recorded_append newRoot s t)

theorem format : ctx'.format = ctx.format := by rw [h.session]

theorem unsafeVersionGuessing : ctx'.unsafeVersionGuessing = ctx.unsafeVersionGuessing := by
  rw [h.session]

theorem joinPath_injective : Function.Injective (ctx'.joinPath newRoot) := by
  intro s t heq
  rw [h.joinPath_newRoot, h.joinPath_newRoot] at heq
  exact recorded_inj heq

/-! ### The metadata file -/

theorem generateUrl_agrees (s version : String) (formats : List String) :
    Agree (SamePlace oldRoot newRoot)
      (IcebergSnapshot.generateUrl ctx (recorded oldRoot s) version options formats)
      (IcebergSnapshot.generateUrl ctx' (recorded newRoot s) version (movedOptions options)
        formats) := by
  induction formats with
  | nil => exact .error _ _
  | cons tryFormat formats ih =>
    unfold IcebergSnapshot.generateUrl
    rw [h.format]
    refine Agree.bind (Agree.refl (fun _ => Eq.refl _) _) ?_
    rintro name _ rfl
    rw [h.joinPath_old, h.joinPath_new]
    refine Agree.bind (h.fileExists _) ?_
    rintro found _ rfl
    cases found with
    | true => exact .ok ⟨_, rfl, rfl⟩
    | false => exact ih

theorem generateMetaDataUrl_agrees (s version : String) :
    Agree (SamePlace oldRoot newRoot)
      (IcebergSnapshot.generateMetaDataUrl ctx (recorded oldRoot s) version options)
      (IcebergSnapshot.generateMetaDataUrl ctx' (recorded newRoot s) version
        (movedOptions options)) :=
  h.generateUrl_agrees s version _

theorem hint_agrees (s versionFile : String) :
    Agree (SamePlace oldRoot newRoot)
      (IcebergSnapshot.getTableVersionFromHint ctx (recorded oldRoot s) versionFile >>= fun hint =>
        IcebergSnapshot.generateMetaDataUrl ctx (recorded oldRoot s) hint options)
      (IcebergSnapshot.getTableVersionFromHint ctx' (recorded newRoot s) versionFile >>= fun hint =>
        IcebergSnapshot.generateMetaDataUrl ctx' (recorded newRoot s) hint
          (movedOptions options)) := by
  unfold IcebergSnapshot.getTableVersionFromHint fileToString
  rw [h.joinPath_old, h.joinPath_new]
  refine Agree.bind (h.readFile _) ?_
  rintro hint _ rfl
  exact h.generateMetaDataUrl_agrees s hint

theorem guessVersion_agrees (s : String) (formats : List String) :
    Agree (SamePlace oldRoot newRoot)
      (IcebergSnapshot.guessVersion ctx (recorded oldRoot s) options formats)
      (IcebergSnapshot.guessVersion ctx' (recorded newRoot s) (movedOptions options) formats) := by
  induction formats with
  | nil => exact .error _ _
  | cons tryFormat formats ih =>
    unfold IcebergSnapshot.guessVersion
    rw [h.format]
    refine Agree.bind (Agree.refl (fun _ => Eq.refl _) _) ?_
    rintro pattern _ rfl
    rw [h.joinPath_old, h.joinPath_new]
    refine Agree.bind (h.glob _) ?_
    rintro _ _ ⟨below, rfl, rfl⟩
    rcases pickTableVersion_recorded oldRoot newRoot below with ⟨hold, hnew⟩ | ⟨t, hold, hnew⟩
    · rw [hold, hnew]
      exact ih
    · dsimp only
      rw [hold, hnew, if_pos (recorded_ne_empty _ _), if_pos (recorded_ne_empty _ _)]
      exact .ok ⟨t, rfl, rfl⟩

/-- The metadata file is at the same place. -/
theorem getMetaDataPath_agrees :
    Agree (SamePlace oldRoot newRoot) (IcebergSnapshot.getMetaDataPath ctx oldRoot options)
      (IcebergSnapshot.getMetaDataPath ctx' newRoot (movedOptions options)) := by
  unfold IcebergSnapshot.getMetaDataPath
  dsimp only
  rw [h.oldDirectory, h.newDirectory, h.joinPath_oldRoot, h.joinPath_newRoot,
    if_neg Bool.false_ne_true, if_neg Bool.false_ne_true]
  -- the options name a file with the version, or give it, or the table has a hint
  refine Agree.ite (fun _ => h.hint_agrees "metadata" _) fun _ => ?_
  refine Agree.ite (fun _ => h.generateMetaDataUrl_agrees "metadata" _) fun _ => ?_
  rw [h.joinPath_old, h.joinPath_new, h.unsafeVersionGuessing]
  refine Agree.bind (h.fileExists _) ?_
  rintro found _ rfl
  refine Agree.ite (fun _ => h.hint_agrees "metadata" _) fun _ => ?_
  exact Agree.ite (fun _ => .error _ _) fun _ => h.guessVersion_agrees "metadata" _

/-! ### The snapshot -/

theorem readMetaData_agrees (s codec : String) :
    Agree Eq (IcebergSnapshot.readMetaData ctx (recorded oldRoot s) codec)
      (IcebergSnapshot.readMetaData ctx' (recorded newRoot s) codec) := by
  have hgunzip : ctx'.uncompressGzip = ctx.uncompressGzip := by rw [h.session]
  unfold IcebergSnapshot.readMetaData gzFileToString fileToString
  rw [endsWith_recorded (by decide), endsWith_recorded (by decide), hgunzip]
  refine Agree.ite (fun _ => Agree.bind (h.readFile s) ?_) fun _ => h.readFile s
  rintro text _ rfl
  exact Agree.refl (fun _ => Eq.refl _) _

theorem getFileParseInfo_agrees (s codec : String) :
    Agree Eq (IcebergSnapshot.getFileParseInfo ctx (recorded oldRoot s) codec)
      (IcebergSnapshot.getFileParseInfo ctx' (recorded newRoot s) codec) := by
  have hread : ctx'.yyjsonRead = ctx.yyjsonRead := by rw [h.session]
  unfold IcebergSnapshot.getFileParseInfo
  rw [hread]
  refine Agree.bind (h.readMetaData_agrees s codec) ?_
  rintro text _ rfl
  cases ctx.yyjsonRead text with
  | none => exact .error _ _
  | some doc => exact Agree.refl (fun _ => Eq.refl _) _

/-- What is made of the metadata does not depend on the files. -/
theorem parseSnapShot_eq (snapshot : Option Json) (version schemaId : ℕ) (schemas : List Json) :
    IcebergSnapshot.parseSnapShot ctx' snapshot version schemaId schemas (movedOptions options) =
      IcebergSnapshot.parseSnapShot ctx snapshot version schemaId schemas options := by
  rw [h.session]
  rfl

/-- **The same snapshot** is selected. -/
theorem select_agrees (s : String) :
    Agree Eq (IcebergSnapshot.select ctx (recorded oldRoot s) options)
      (IcebergSnapshot.select ctx' (recorded newRoot s) (movedOptions options)) := by
  have hepoch : ctx'.getEpochMs = ctx.getEpochMs := by rw [h.session]
  have hinfo := h.getFileParseInfo_agrees s options.metadataCompressionCodec
  unfold IcebergSnapshot.select
  have hsource : (movedOptions options).snapshotSource = options.snapshotSource := rfl
  rw [hsource]
  cases options.snapshotSource with
  | latest =>
    refine Agree.bind hinfo ?_
    rintro info _ rfl
    simp only [h.parseSnapShot_eq]
    exact Agree.refl (fun _ => Eq.refl _) _
  | fromId =>
    refine Agree.bind hinfo ?_
    rintro info _ rfl
    simp only [h.parseSnapShot_eq]
    exact Agree.refl (fun _ => Eq.refl _) _
  | fromTimestamp =>
    refine Agree.bind hinfo ?_
    rintro info _ rfl
    simp only [h.parseSnapShot_eq]
    unfold IcebergSnapshot.findSnapshotByIdTimestampInternal
    rw [hepoch]
    refine Agree.bind (Agree.refl (fun _ => Eq.refl _) _) ?_
    rintro found _ rfl
    cases found with
    | none => exact .error _ _
    | some snapshot => exact Agree.refl (fun _ => Eq.refl _) _

/-! ### Opened files -/

end Moved

/-- The file is opened as its counterpart below the new root. -/
def Corresponds (oldRoot newRoot : String) (f f' : OpenedFile) : Prop :=
  f'.kind = f.kind ∧ SamePlace oldRoot newRoot f.path f'.path

/-- The file is one whose path is rewritten to its counterpart: no delete file, and recorded under a
path that is cut at the root. -/
def Relocated (oldRoot : String) (f : OpenedFile) : Prop :=
  f.kind ≠ .deleteFile ∧ ∃ s, f.path = recorded oldRoot s ∧ CutAtRoot oldRoot s

/-- The file is recorded below the root, in one of its two directories, and neither of them has another
directory of these names in it. -/
def RecordedBelow (oldRoot : String) (f : OpenedFile) : Prop :=
  ∃ s, f.path = recorded oldRoot s ∧ TablePath s ∧ ¬ "/metadata/".toList <:+: s.toList ∧
    ¬ "/data/".toList <:+: s.toList

/-- A path of `data` has a `/metadata/` in front of it only when the root has. -/
theorem metadata_infix_recorded (hs : "data/".toList <+: s.toList)
    (hbelow : ¬ "/metadata/".toList <:+: s.toList) :
    "/metadata/".toList <:+: (recorded oldRoot s).toList ↔
      "/metadata/".toList <:+: (oldRoot ++ "/").toList := by
  have hroot : (oldRoot ++ "/").toList = oldRoot.toList ++ ['/'] := String.toList_append
  have hword : "/metadata/".toList = '/' :: ("metadata".toList ++ ['/']) := rfl
  have hslash : '/' ∉ "metadata".toList := by decide
  rw [toList_recorded, hroot, hword, infix_append_cons hslash, or_iff_left]
  rw [List.infix_cons_iff, not_or, List.cons_prefix_cons]
  exact ⟨fun hpre => not_prefix_both hs hpre.2, hbelow⟩

/-- Of the files that are recorded below the root, all but delete files are relocated, and those of
`data` only when there is no `/metadata/` in the path of the root. -/
theorem relocated_iff {f : OpenedFile} (hf : f.path = recorded oldRoot s) (hs : TablePath s)
    (hmeta : ¬ "/metadata/".toList <:+: s.toList) (hdata : ¬ "/data/".toList <:+: s.toList) :
    Relocated oldRoot f ↔ f.kind ≠ .deleteFile ∧
      ("metadata/".toList <+: s.toList ∨ ¬ "/metadata/".toList <:+: (oldRoot ++ "/").toList) := by
  refine and_congr_right fun _ => ⟨?_, fun hcut => ⟨s, hf, ?_⟩⟩
  · rintro ⟨s', hf', hcut⟩
    obtain rfl := recorded_inj (hf'.symm.trans hf)
    rcases hcut with ⟨hs', -⟩ | ⟨hs', hroot, -⟩
    · exact Or.inl hs'
    · exact Or.inr (mt (metadata_infix_recorded hs' hmeta).2 hroot)
  · rcases hs with hs | hs
    · exact Or.inl ⟨hs, hmeta⟩
    · have hroot := hcut.resolve_left (not_prefix_both hs)
      exact Or.inr ⟨hs, mt (metadata_infix_recorded hs hmeta).1 hroot, hdata⟩

namespace Moved

variable (h : Moved ctx ctx' files files' oldRoot newRoot)

include h

/-- A path is rewritten to its counterpart exactly when it is cut at the root. -/
theorem fullPath_eq_iff (options : IcebergOptions) (s : String) :
    fullPath ctx' newRoot (movedOptions options) (recorded oldRoot s) = .ok (recorded newRoot s) ↔
      CutAtRoot oldRoot s := by
  have hjoin : ctx'.joinPath newRoot s = recorded newRoot s := h.joinPath_newRoot s
  have hfull : fullPath ctx' newRoot (movedOptions options) (recorded oldRoot s) =
      getFullPath ctx' newRoot (recorded oldRoot s) := rfl
  rw [hfull, ← hjoin]
  refine ⟨fun heq => ?_, getFullPath_of_cutAtRoot⟩
  have hpath := tablePath_of_getFullPath h.joinPath_injective heq
  exact cutAtRoot_of_getFullPath h.joinPath_injective hpath heq

/-- **A path that is opened** in both scans: they go on together where it is cut at the root. -/
theorem pathOpened_logs {kind : FileKind} (hkind : kind ≠ .deleteFile)
    (ho : options.allowMovedPaths = false) (path : String) {together stopped : Prop}
    (htogether : ∀ s, path = recorded oldRoot s →
      fullPath ctx' newRoot (movedOptions options) path = .ok (recorded newRoot s) → together)
    (hstopped : ∀ e, fullPath ctx' newRoot (movedOptions options) path = .error e → stopped) :
    Logs (Corresponds oldRoot newRoot) (Relocated oldRoot)
      (pathOpened ctx kind oldRoot options path)
      (pathOpened ctx' kind newRoot (movedOptions options) path) together stopped := by
  have hlog : pathOpened ctx kind oldRoot options path = [⟨kind, path⟩] := by
    unfold pathOpened fullPath
    rw [ho]
    rfl
  rw [hlog]
  by_cases hcut : ∃ s, path = recorded oldRoot s ∧ CutAtRoot oldRoot s
  · -- the path is rewritten to that of the same file below the new root
    obtain ⟨s, rfl, hcut⟩ := hcut
    have hfull := (h.fullPath_eq_iff options s).2 hcut
    unfold pathOpened
    rw [hfull]
    refine .same ?_ (.cons ⟨rfl, s, rfl, rfl⟩ .nil) (htogether s rfl hfull)
    intro f hf
    obtain rfl := List.mem_singleton.1 hf
    exact ⟨hkind, s, rfl, hcut⟩
  · -- another file is opened, or none: here the two scans part
    refine .parts [] ⟨kind, path⟩ [] [] _ rfl rfl .nil (fun hgood => hcut hgood.2) ?_
    cases hfull : fullPath ctx' newRoot (movedOptions options) path with
    | error e => exact Or.inl ⟨rfl, hstopped e hfull⟩
    | ok path' =>
      refine Or.inr ⟨⟨kind, path'⟩, [], rfl, ?_⟩
      rintro ⟨-, s, hold, hnew⟩
      dsimp only at hold hnew
      subst hold hnew
      exact hcut ⟨s, rfl, (h.fullPath_eq_iff options s).1 hfull⟩

/-- **An Avro file** is opened in both scans. -/
theorem openAvro_logs {kind : FileKind} (hkind : kind ≠ .deleteFile)
    (ho : options.allowMovedPaths = false) (path : String) :
    Logs (Corresponds oldRoot newRoot) (Relocated oldRoot)
      (pathOpened ctx kind oldRoot options path)
      (pathOpened ctx' kind newRoot (movedOptions options) path)
      (Agree Eq (openAvro ctx oldRoot options path)
        (openAvro ctx' newRoot (movedOptions options) path))
      (∃ e, openAvro ctx' newRoot (movedOptions options) path = .error e) := by
  refine h.pathOpened_logs hkind ho path ?_ ?_
  · rintro s rfl hfull
    have hold : fullPath ctx oldRoot options (recorded oldRoot s) = .ok (recorded oldRoot s) := by
      unfold fullPath
      rw [ho]
      rfl
    unfold openAvro
    rw [hfull, hold]
    change Agree Eq (ctx.readAvro _ >>= fun scan => .ok { scan with finished := false })
      (ctx'.readAvro _ >>= fun scan => .ok { scan with finished := false })
    refine Agree.bind (h.readAvro s) ?_
    rintro scan _ rfl
    exact .ok rfl
  · intro e hfull
    unfold openAvro
    rw [hfull]
    exact ⟨e, rfl⟩

end Moved

end MovedTable

end DuckIceberg
