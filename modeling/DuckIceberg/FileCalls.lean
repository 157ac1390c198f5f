import DuckIceberg.Initialization
import Mathlib.Algebra.Order.BigOperators.Group.List
import Mathlib.Data.List.GetD

/-!
# Calls on a fresh list

What the public functions of a list answer, whatever the order they are called in.

* `call_spec`: one call on a list that has been initialised;
* `answers_spec`: any sequence of them;
* `calls_eq_answers`: any sequence of calls on a fresh list, against the files that are recorded in
  the manifests of the table.
-/

namespace DuckIceberg

open Strings Stride ManifestReader

namespace IcebergMultiFileList

/-! ### One call -/

section Calls

variable {ctx : ClientContext} {op : ManifestFormat IcebergManifestEntry}
  {types : List LogicalType} {files : List IcebergManifestEntry} {l : IcebergMultiFileList}

/-- The path of the file with this number. -/
def fileAt (ctx : ClientContext) (path : String) (options : IcebergOptions)
    (files : List IcebergManifestEntry) (i : ℕ) : Except Error String :=
  match files[i]? with
  | none => .ok ""
  | some dataFile => fullPath ctx path options dataFile.filePath

/-- **One call of `GetFile`** returns the file it is asked for. -/
theorem getFile_spec (hop : op.wanted true = IcebergManifestEntry.live)
    (h : Expanding ctx op types files l) {i : ℕ} (hi : i < 2 ^ 63)
    (hs : SparesSources (i + 1 - l.dataFiles.length) (sources ctx l)) :
    ∃ l', getFile ctx i l = (fileAt ctx l.path l.options files i, l') ∧
      Expanding ctx op types files l' ∧ (i < l'.dataFiles.length ∨ l'.dataFiles = files) ∧
      Frame l l' := by
  obtain ⟨l', hexpand, h', hend, hframe⟩ := expand_spec hop h hi hs
  refine ⟨l', ?_, h', hend, hframe⟩
  have hget : l'.dataFiles[i]? = files[i]? := by
    rcases hend with hlt | heq
    · rw [← h'.files_eq, List.getElem?_append_left hlt]
    · rw [heq]
  simp only [getFile, initializeFiles_again h.initialized, hexpand, hget, fileAt]
  cases files[i]? with
  | none => rfl
  | some dataFile => simp only [hframe.path, hframe.options]

/-- The paths of the files, none of them empty. -/
structure PathsAre (ctx : ClientContext) (path : String) (options : IcebergOptions)
    (files : List IcebergManifestEntry) (paths : List String) : Prop where
  opens : List.Forall₂ (fun dataFile p => fullPath ctx path options dataFile.filePath = .ok p)
    files paths
  nonempty : "" ∉ paths

theorem PathsAre.fileAt {path : String} {options : IcebergOptions} {paths : List String}
    (h : PathsAre ctx path options files paths) (i : ℕ) :
    fileAt ctx path options files i = .ok (paths.getD i "") := by
  obtain ⟨h, -⟩ := h
  induction h generalizing i with
  | nil => rfl
  | cons hp _ ih =>
    cases i with
    | zero => exact hp
    | succ i => exact ih i

theorem PathsAre.getD_eq_empty_iff {path : String} {options : IcebergOptions}
    {paths : List String} (h : PathsAre ctx path options files paths) (i : ℕ) :
    paths.getD i "" = "" ↔ files.length ≤ i := by
  rw [h.opens.length_eq]
  by_cases hi : i < paths.length
  · have hmem : paths[i] ∈ paths := List.getElem_mem hi
    rw [List.getD_eq_getElem _ _ hi]
    constructor
    · intro heq
      rw [heq] at hmem
      exact absurd hmem h.nonempty
    · intro hle
      omega
  · rw [List.getD_eq_default _ _ (by omega)]
    simp only [true_iff]
    omega

/-! ### Counting -/

variable (op) in
theorem rowsOf_pieces_le (m : NameMap) (types : List LogicalType) (stream : List Fetch) :
    (rowsOf (stream.map (piece op m types))).length ≤ stream.length * standardVectorSize := by
  induction stream with
  | nil => exact Nat.zero_le _
  | cons f fs ih =>
    have hhead : (piece op m types f).toRows.length ≤ standardVectorSize := by
      cases hp : piece op m types f with
      | rows es => exact piece_length op hp
      | fails e => exact Nat.zero_le _
      | stuck e => exact Nat.zero_le _
    rw [List.map_cons, rowsOf, List.flatMap_cons, List.length_append, List.length_cons,
      Nat.add_mul, one_mul]
    rw [rowsOf] at ih
    omega

/-- What is ahead of a reader is no more than a chunk and the deliveries after it. -/
theorem rest_le (r : ManifestReader) : (r.rest op).length ≤ rowsWithin r.stream.length := by
  have hstream := rowsOf_pieces_le op r.nameToVec r.chunk.types r.stream
  rw [rest, List.length_append, rowsWithin, Nat.add_mul, one_mul]
  by_cases hlt : r.offset < r.chunk.size
  · cases hd : op.rows r.nameToVec r.chunk with
    | ok es =>
      obtain ⟨hcur, hahead⟩ := view_rows op hlt hd
      have hlen := op.rows_length hd
      have hsize := r.chunk.size_le
      rw [hcur, hahead, List.length_drop, pieces]
      omega
    | error e =>
      obtain ⟨hcur, hahead⟩ := view_stuck op hlt hd
      rw [hcur, hahead, rowsOf_stuck, pieces, List.length_nil]
      omega
  · obtain ⟨hcur, hahead⟩ := view_used_up op (r := r) (by omega)
    rw [hcur, hahead, pieces, List.length_nil]
    omega

theorem manifestPieces_le (ctx : ClientContext) (l : IcebergMultiFileList) (r : ManifestReader)
    (manifest : IcebergManifest) :
    (rowsOf (manifestPieces ctx l r op manifest)).length ≤ manifestBound ctx l manifest := by
  unfold manifestPieces manifestBound
  cases openAvro ctx l.path l.options manifest.manifestPath with
  | error e => exact Nat.zero_le _
  | ok scan =>
    have := rowsOf_pieces_le op (nameMap op scan) (r.layout scan) scan.stream
    simp only [rowsWithin, Nat.add_mul]
    omega

theorem pending_le (sources : List (List (Piece IcebergManifestEntry Error))) :
    (pending sources).length ≤ (sources.map fun source => (rowsOf source).length).sum := by
  induction sources with
  | nil => exact le_refl 0
  | cons source sources ih =>
    have hle := List.length_filter_le IcebergManifestEntry.live (rowsOf source)
    rw [pending_cons, List.length_append, List.map_cons, List.sum_cons]
    omega

theorem sum_drop_succ_le {α : Type} (f : α → ℕ) (as : List α) (k : ℕ) :
    ((as.drop (k + 1)).map f).sum ≤ ((as.drop k).map f).sum := by
  rw [← List.drop_drop, List.map_drop, List.map_drop]
  exact List.Sublist.sum_le_sum (List.drop_sublist 1 _) fun _ _ => Nat.zero_le _

/-- There are no more files than `rowBound` says. -/
theorem files_le (h : Expanding ctx op types files l) : files.length ≤ rowBound ctx l := by
  obtain ⟨-, hprod, ⟨r, hr, -, -, -, -⟩, -, hfiles⟩ := h
  have hmanifests : ∀ ms : List IcebergManifest,
      (pending (ms.map (manifestPieces ctx l r op))).length ≤
        (ms.map (manifestBound ctx l)).sum := by
    intro ms
    refine (pending_le _).trans ?_
    rw [List.map_map]
    exact List.sum_le_sum fun m _ => manifestPieces_le ctx l r m
  rw [← hfiles, List.length_append, rowBound, hr, Option.elim_some]
  by_cases hfin : r.isFinished = true
  · rw [sources_finished hr hprod hfin]
    have := hmanifests (l.dataManifests.drop l.currentDataManifest)
    omega
  · rw [sources_reading hr hprod (by simpa using hfin), pending_cons, List.length_append]
    have hrest : ((rowsOf (.rows (r.current op) :: r.ahead op)).filter
        IcebergManifestEntry.live).length ≤ rowsWithin r.stream.length :=
      (List.length_filter_le _ _).trans (rest_le r)
    have hdrop := hmanifests (l.dataManifests.drop (l.currentDataManifest + 1))
    have htail := sum_drop_succ_le (manifestBound ctx l) l.dataManifests l.currentDataManifest
    omega

section Counting

variable {paths : List String}

/-- The invariant of the loop of `GetTotalFileCount`: the files before `i` have been produced. -/
structure Counts (ctx : ClientContext) (op : ManifestFormat IcebergManifestEntry)
    (types : List LogicalType) (files : List IcebergManifestEntry) (l₀ : IcebergMultiFileList)
    (st : ℕ × IcebergMultiFileList) : Prop where
  expanding : Expanding ctx op types files st.2
  produced : st.1 ≤ st.2.dataFiles.length
  frame : Frame l₀ st.2

theorem produced_le (h : Expanding ctx op types files l) : l.dataFiles.length ≤ files.length := by
  rw [← h.files_eq, List.length_append]
  omega

/-- A request for the next file passes over none. -/
theorem spares_next {i : ℕ} (hi : i ≤ l.dataFiles.length) :
    SparesSources (i + 1 - l.dataFiles.length) (sources ctx l) := by
  rcases Nat.lt_or_ge i l.dataFiles.length with hlt | hge
  · rw [show i + 1 - l.dataFiles.length = 0 by omega]
    exact sparesSources_zero _
  · rw [show i + 1 - l.dataFiles.length = 1 by omega]
    exact sparesSources_one _

/-- **One round** of the loop of `GetTotalFileCount` asks for the next file. -/
theorem countRound_spec (hop : op.wanted true = IcebergManifestEntry.live)
    {l₀ : IcebergMultiFileList} (hpaths : PathsAre ctx l₀.path l₀.options files paths)
    (hlen : files.length < 2 ^ 63) {st : ℕ × IcebergMultiFileList}
    (h : Counts ctx op types files l₀ st) :
    (∃ l, countRound ctx st = .done (.ok files.length, l) ∧ Expanding ctx op types files l ∧
      Frame l₀ l) ∨
    ∃ st', countRound ctx st = .next st' ∧ Counts ctx op types files l₀ st' ∧
      files.length - st'.1 < files.length - st.1 := by
  obtain ⟨i, l⟩ := st
  obtain ⟨hexp, hi, hframe⟩ := h
  simp only at hexp hi hframe
  have hle := produced_le hexp
  obtain ⟨l', hget, hexp', hend, hframe'⟩ :=
    getFile_spec hop hexp (show i < 2 ^ 63 by omega) (spares_next hi)
  rw [hframe.path, hframe.options, hpaths.fileAt] at hget
  by_cases hlast : files.length ≤ i
  · refine Or.inl ⟨l', ?_, hexp', hframe.trans hframe'⟩
    have hfiles : l'.dataFiles = files := by
      rcases hend with hlt | heq
      · have := produced_le hexp'
        omega
      · exact heq
    simp only [countRound, hget, (hpaths.getD_eq_empty_iff i).2 hlast, if_true, hfiles]
  · refine Or.inr ⟨(i + 1, l'), ?_, ⟨hexp', ?_, hframe.trans hframe'⟩, ?_⟩
    · simp only [countRound, hget, hpaths.getD_eq_empty_iff i, if_neg hlast]
    · rcases hend with hlt | heq
      · exact hlt
      · show i + 1 ≤ l'.dataFiles.length
        rw [heq]
        omega
    · simp only
      omega

/-- What the loop of `GetTotalFileCount` leaves. -/
def CountPost (ctx : ClientContext) (op : ManifestFormat IcebergManifestEntry)
    (types : List LogicalType) (files : List IcebergManifestEntry) (l₀ : IcebergMultiFileList)
    (out : Outcome IcebergMultiFileList ℕ) : Prop :=
  out.1 = .ok files.length ∧ Expanding ctx op types files out.2 ∧ Frame l₀ out.2

/-- **`GetTotalFileCount`** produces all files. -/
theorem getTotalFileCount_spec (hop : op.wanted true = IcebergManifestEntry.live)
    (h : Expanding ctx op types files l) (hpaths : PathsAre ctx l.path l.options files paths)
    (hlen : files.length < 2 ^ 63) :
    ∃ l', getTotalFileCount ctx l = (.ok files.length, l') ∧ Expanding ctx op types files l' ∧
      Frame l l' := by
  have hdone : ∀ st out, Counts ctx op types files l st → countRound ctx st = .done out →
      CountPost ctx op types files l out := by
    intro st out hst hb
    rcases countRound_spec hop hpaths hlen hst with ⟨l', hdone, h1, h2⟩ | ⟨st', hnext, -⟩
    · rw [hdone] at hb
      cases hb
      exact ⟨rfl, h1, h2⟩
    · rw [hnext] at hb
      cases hb
  have hnext : ∀ st st', Counts ctx op types files l st → countRound ctx st = .next st' →
      Counts ctx op types files l st' ∧ files.length - st'.1 < files.length - st.1 ∧
        ∀ out, CountPost ctx op types files l out → CountPost ctx op types files l out := by
    intro st st' hst hb
    rcases countRound_spec hop hpaths hlen hst with ⟨l', hdone, -⟩ | ⟨st'', hnext, h1, h2⟩
    · rw [hdone] at hb
      cases hb
    · rw [hnext] at hb
      cases hb
      exact ⟨h1, h2, fun _ hout => hout⟩
  have hfuel : files.length - l.dataFiles.length < rowBound ctx l + 2 := by
    have := files_le h
    omega
  obtain ⟨⟨res, l'⟩, hrun, rfl, h1, h2⟩ := Loop.run_spec (Counts ctx op types files l)
    (fun st => files.length - st.1) (fun _ => CountPost ctx op types files l) hdone hnext
    (rowBound ctx l + 2) (l.dataFiles.length, l) ⟨h, le_refl _, Frame.refl l⟩ hfuel
  refine ⟨l', ?_, h1, h2⟩
  rw [getTotalFileCount, initializeFiles_again h.initialized]
  simp only [hrun, Option.getD_some]

end Counting

/-! ### Sequences of calls -/

/-- How many files the list has to have for the call, if there are that many.  The calls that count
ask for one file after the other. -/
def Call.wants : Call → ℕ
  | .getFile i => i + 1
  | .getExpandResult => 2
  | _ => 0

/-- The reads of the call pass over no data file; `l` is the list once it is initialised. -/
def Call.Spares (ctx : ClientContext) (l : IcebergMultiFileList) (c : Call) : Prop :=
  SparesSources (c.wants - l.dataFiles.length) (sources ctx l)

/-- A call for files that the list has does not read. -/
theorem Call.spares_of_produced {c : Call} (h : c.wants ≤ l.dataFiles.length) :
    c.Spares ctx l := by
  rw [Call.Spares, Nat.sub_eq_zero_of_le h]
  exact sparesSources_zero _

/-- The reads of each call pass over no data file. -/
def EachSpares (ctx : ClientContext) : List Call → IcebergMultiFileList → Prop
  | [], _ => True
  | c :: calls, l =>
    c.Spares ctx (initializeFiles ctx l).2 ∧ EachSpares ctx calls (call ctx l c).2

theorem eachSpares_cons {c : Call} {calls : List Call} {l : IcebergMultiFileList}
    (hc : c.wants ≤ (initializeFiles ctx l).2.dataFiles.length)
    (h : EachSpares ctx calls (call ctx l c).2) : EachSpares ctx (c :: calls) l :=
  ⟨Call.spares_of_produced hc, h⟩

/-- What the call answers on a table with these columns, and with data files under these paths. -/
def Call.answer (schema : List IcebergColumnDefinition) (paths : List String) : Call → Answer
  | .bind => .columns (schema.map fun c => (c.name, c.type))
  | .getFile i => .file (paths.getD i "")
  | .getExpandResult => .expands (expandResult paths.length)
  | .getTotalFileCount => .count paths.length
  | .getCardinality => .cardinality (if paths.length = 0 then some (0, 0) else none)

variable {paths : List String}

/-- **One call** on a list that has been initialised. -/
theorem call_spec (hop : op.wanted true = IcebergManifestEntry.live)
    (h : Expanding ctx op types files l) (hpaths : PathsAre ctx l.path l.options files paths)
    (hlen : files.length < 2 ^ 63) {c : Call} (hc : c.wants ≤ 2 ^ 63) (hs : c.Spares ctx l) :
    ∃ l', call ctx l c = (.ok (c.answer l.snapshot.schema paths), l') ∧
      Expanding ctx op types files l' ∧ Frame l l' := by
  have hcount := hpaths.opens.length_eq
  cases c with
  | bind =>
    refine ⟨l, ?_, h, Frame.refl l⟩
    rw [call, bind, initializeFiles_again h.initialized]
    rfl
  | getFile i =>
    obtain ⟨l', hget, h', -, hframe⟩ := getFile_spec hop h hc hs
    rw [hpaths.fileAt] at hget
    exact ⟨l', by rw [call, hget]; rfl, h', hframe⟩
  | getExpandResult =>
    obtain ⟨l', hget, h', hend, hframe⟩ := getFile_spec hop h (by decide : 1 < 2 ^ 63) hs
    rw [hpaths.fileAt] at hget
    refine ⟨l', ?_, h', hframe⟩
    have hsame : expandResult l'.dataFiles.length = expandResult paths.length := by
      have hle := produced_le h'
      rcases hend with hlt | heq
      · rw [expandResult, expandResult, if_pos hlt, if_pos (by omega)]
      · rw [heq, hcount]
    simp only [call, getExpandResult, hget, hsame]
    rfl
  | getTotalFileCount =>
    obtain ⟨l', htotal, h', hframe⟩ := getTotalFileCount_spec hop h hpaths hlen
    exact ⟨l', by rw [call, htotal, hcount]; rfl, h', hframe⟩
  | getCardinality =>
    obtain ⟨l', htotal, h', hframe⟩ := getTotalFileCount_spec hop h hpaths hlen
    refine ⟨l', ?_, h', hframe⟩
    simp only [call, getCardinality, htotal, hcount]
    rfl

/-- **A sequence of calls** on a list that has been initialised. -/
theorem answers_spec (hop : op.wanted true = IcebergManifestEntry.live)
    (h : Expanding ctx op types files l) (hpaths : PathsAre ctx l.path l.options files paths)
    (hlen : files.length < 2 ^ 63) {calls : List Call} (hcalls : ∀ c ∈ calls, c.wants ≤ 2 ^ 63)
    (hs : EachSpares ctx calls l) :
    answers (calls.map (ctx, ·)) l =
      calls.map fun c => .ok (c.answer l.snapshot.schema paths) := by
  induction calls generalizing l with
  | nil => rfl
  | cons c calls ih =>
    obtain ⟨hc, hrest⟩ := hs
    rw [initializeFiles_again h.initialized] at hc
    obtain ⟨l', hcall, h', hframe⟩ :=
      call_spec hop h hpaths hlen (hcalls c List.mem_cons_self) hc
    rw [hcall] at hrest
    have hih := ih h' (by rw [hframe.path, hframe.options]; exact hpaths)
      (fun c hc => hcalls c (List.mem_cons_of_mem _ hc)) hrest
    rw [List.map_cons, answers, hcall, hih, hframe.snapshot]
    rfl

end Calls

/-! ### A fresh list -/

section Fresh

variable {ctx : ClientContext} {path : String} {options : IcebergOptions}

/-- The data files that a list produces once it is initialised with these manifests. -/
theorem expanding_initializedWith {snapshot : IcebergSnapshot}
    {manifestOp : ManifestFormat IcebergManifest} {op : ManifestFormat IcebergManifestEntry}
    {types : List LogicalType} {manifests : List IcebergManifest}
    {entries : IcebergManifest → List (List IcebergManifestEntry)}
    (hopens : ∀ m ∈ manifests.filter (·.content == .data),
      ManifestIs ctx path options op types m (entries m)) (r : ManifestReader) :
    Expanding ctx op types
      ((manifests.filter (·.content == .data)).flatMap fun m =>
        (entries m).flatten.filter IcebergManifestEntry.live)
      (initializedWith (ofPath path options) snapshot manifestOp op r manifests) := by
  set l := initializedWith (ofPath path options) snapshot manifestOp op r manifests with hl
  have hmanifests : l.dataManifests = manifests.filter (·.content == .data) := rfl
  have hlaid : Laid types { make op with skipDeleted := true } := Or.inl rfl
  refine ⟨rfl, rfl, ⟨{ make op with skipDeleted := true }, rfl, ⟨rfl, rfl⟩, rfl, hlaid,
    Or.inl rfl⟩, ?_, ?_⟩
  · intro m hm
    rw [hmanifests] at hm
    exact ⟨_, hopens m hm⟩
  · have hsources : sources ctx l =
        (manifests.filter (·.content == .data)).map fun m => (entries m).map .rows := by
      rw [sources_finished (l := l) rfl rfl rfl, hmanifests]
      exact List.map_congr_left fun m hm => manifestPieces_eq (hopens m hm) hlaid
    rw [hsources, pending, List.flatMap_map]
    simp only [rowsOf_map_rows]
    rfl

/-- They are those recorded, when no manifest of data files is passed over. -/
theorem initializedWith_expanding (t : Recorded ctx path options) {types : List LogicalType}
    (hopens : ∀ m ∈ t.dataManifests, t.Opens m) (htypes : ∀ m ∈ t.dataManifests, t.types m = types)
    (hpassed : ∀ m ∈ t.passedOver, m.content ≠ .data) (r : ManifestReader) :
    Expanding ctx t.entryOp types t.dataFiles
      (initializedWith (ofPath path options) t.snapshot t.manifestOp t.entryOp r
        (kept standardVectorSize (fun _ => true) 0 t.chunks)) := by
  have hlist : (kept standardVectorSize (fun _ => true) 0 t.chunks).filter (·.content == .data) =
      t.dataManifests := by
    refine (kept_filter_eq_iff _ _ _).2 fun m hm => ?_
    simpa using hpassed m hm
  have hopens' : ∀ m ∈ (kept standardVectorSize (fun _ => true) 0 t.chunks).filter
      (·.content == .data), ManifestIs ctx path options t.entryOp types m (t.entries m) := by
    intro m hm
    rw [hlist] at hm
    have hm' := hopens m hm
    rwa [Recorded.Opens, htypes m hm] at hm'
  have hfiles : t.dataFiles = ((kept standardVectorSize (fun _ => true) 0 t.chunks).filter
      (·.content == .data)).flatMap fun m => (t.entries m).flatten.filter IcebergManifestEntry.live := by
    rw [hlist]
    rfl
  rw [hfiles]
  exact expanding_initializedWith hopens' r

/-- The first call initialises the list. -/
theorem call_initializes {l l' : IcebergMultiFileList} (h : initializeFiles ctx l = (.ok (), l'))
    (hl' : l'.initialized = true) (hfiles : l'.dataFiles = l.dataFiles) (c : Call) :
    call ctx l c = call ctx l' c := by
  have hbind : bind ctx l = bind ctx l' := by rw [bind, bind, h, initializeFiles_again hl']
  have hget : ∀ i, getFile ctx i l = getFile ctx i l' := by
    intro i
    rw [getFile, getFile, h, initializeFiles_again hl']
  have hcount : getTotalFileCount ctx l = getTotalFileCount ctx l' := by
    have hround : countRound ctx (l'.dataFiles.length, l) =
        countRound ctx (l'.dataFiles.length, l') := by
      simp only [countRound, hget]
    simp only [getTotalFileCount, h, initializeFiles_again hl', ← hfiles]
    rw [Loop.run_succ_congr hround]
  cases c with
  | bind => rw [call, call, hbind]
  | getFile i => rw [call, call, hget]
  | getExpandResult => rw [call, call, getExpandResult, getExpandResult, hget]
  | getTotalFileCount => rw [call, call, hcount]
  | getCardinality => rw [call, call, getCardinality, getCardinality, hcount]

/-- **Main result.** The calls on a fresh list, in whatever order, are answered from the data files
that the table records, when no manifest of data files is passed over and each call spares the
data files it does not ask for. -/
theorem calls_eq_answers (t : Recorded ctx path options) {paths : List String}
    (hopens : ∀ m ∈ t.dataManifests, t.Opens m)
    (hpaths : PathsAre ctx path options t.dataFiles paths) (hlen : t.dataFiles.length < 2 ^ 63)
    (hpassed : ∀ m ∈ t.passedOver, m.content ≠ .data)
    (htypes : ∀ m ∈ t.dataManifests, ∀ m' ∈ t.dataManifests, t.types m = t.types m')
    (calls : List Call) (hcalls : ∀ c ∈ calls, c.wants ≤ 2 ^ 63)
    (hspares : EachSpares ctx calls (ofPath path options)) :
    answers (calls.map (ctx, ·)) (ofPath path options) =
      calls.map fun c => .ok (c.answer t.snapshot.schema paths) := by
  obtain ⟨r, hinit⟩ := initializeFiles_recorded t
  obtain ⟨types, htypes'⟩ : ∃ types, ∀ m ∈ t.dataManifests, t.types m = types := by
    rcases t.dataManifests.eq_nil_or_concat with hnil | ⟨ms, m, hms⟩
    · exact ⟨[], by simp [hnil]⟩
    · have hm : m ∈ t.dataManifests := by simp [hms]
      exact ⟨t.types m, fun m' hm' => htypes m' hm' m hm⟩
  have hexp := initializedWith_expanding t hopens htypes' hpassed r
  set l := initializedWith (ofPath path options) t.snapshot t.manifestOp t.entryOp r
    (kept standardVectorSize (fun _ => true) 0 t.chunks)
  cases calls with
  | nil => rfl
  | cons c calls =>
    have hfirst : call ctx (ofPath path options) c = call ctx l c := call_initializes hinit rfl rfl c
    have hspares' : EachSpares ctx (c :: calls) l := by
      obtain ⟨hc, hrest⟩ := hspares
      rw [hinit] at hc
      rw [hfirst] at hrest
      exact ⟨by rw [initializeFiles_again rfl]; exact hc, hrest⟩
    have hanswers := answers_spec (formats_live t.supported) hexp hpaths hlen hcalls hspares'
    have hsnapshot : t.snapshot = l.snapshot := rfl
    rw [hsnapshot, ← hanswers, List.map_cons, answers, answers, hfirst]

/-- A manifest of three live files after a deleted one. -/
def deletedFirst : List (IcebergManifest × List (List IcebergManifestEntry)) :=
  [(⟨"m.avro", 1, .data⟩,
    [[.ofPath .deleted "d", .ofPath .added "a", .ofPath .added "b", .ofPath .added "c"]])]

/-- What the table of this manifest records. -/
def deletedFirstTable : Recorded (manifestFiles deletedFirst noParquet).context "v1.metadata.json" {} :=
  recordedOf deletedFirst noParquet (by decide) (by decide)

theorem deletedFirst_opens : ∀ m ∈ deletedFirstTable.dataManifests, deletedFirstTable.Opens m :=
  fun m hm => recordedOf_opens noParquet (by decide) (by decide) (by decide) (by decide) m
    (List.mem_of_mem_filter hm)

theorem deletedFirst_paths : PathsAre (manifestFiles deletedFirst noParquet).context
    "v1.metadata.json" {} deletedFirstTable.dataFiles ["a", "b", "c"] := by
  have hfiles : deletedFirstTable.dataFiles =
      [.ofPath .added "a", .ofPath .added "b", .ofPath .added "c"] := by
    decide +kernel
  refine ⟨?_, by decide⟩
  rw [hfiles]
  exact .cons rfl (.cons rfl (.cons rfl .nil))

/-- Counted before it is expanded, the table has three files. -/
theorem calls_eq_answers_count_first :
    answers ([.getTotalFileCount, .getExpandResult, .getFile 2].map
        ((manifestFiles deletedFirst noParquet).context, ·)) (ofPath "v1.metadata.json" {}) =
      [.ok (.count 3), .ok (.expands .multipleFiles), .ok (.file "c")] := by
  have hspares : EachSpares (manifestFiles deletedFirst noParquet).context
      [.getTotalFileCount, .getExpandResult, .getFile 2] (ofPath "v1.metadata.json" {}) := by
    refine eachSpares_cons (Nat.zero_le _) (eachSpares_cons ?_ (eachSpares_cons ?_ trivial))
    · decide +kernel
    · decide +kernel
  exact calls_eq_answers deletedFirstTable deletedFirst_opens deletedFirst_paths
    (by decide +kernel) (by decide +kernel) (fun _ _ _ _ => rfl) _ (by decide) hspares

/-- Expanded before it is counted, it has two. -/
theorem not_answers_expand_first :
    let ctx := (manifestFiles deletedFirst noParquet).context
    let calls : List Call := [.getExpandResult, .getTotalFileCount]
    answers (calls.map (ctx, ·)) (ofPath "v1.metadata.json" {}) =
        [.ok (.expands .multipleFiles), .ok (.count 2)] ∧
      answers (calls.map (ctx, ·)) (ofPath "v1.metadata.json" {}) ≠
        calls.map fun c => .ok (c.answer deletedFirstTable.snapshot.schema ["a", "b", "c"]) := by
  intro ctx calls
  have hanswers : answers (calls.map (ctx, ·)) (ofPath "v1.metadata.json" {}) =
      [.ok (.expands .multipleFiles), .ok (.count 2)] := by
    decide +kernel
  refine ⟨hanswers, ?_⟩
  rw [hanswers]
  decide

end Fresh

end IcebergMultiFileList

end DuckIceberg
