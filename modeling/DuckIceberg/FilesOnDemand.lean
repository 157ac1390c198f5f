import DuckIceberg.MultiFileList

/-!
# Files on demand

What `GetFile` and the functions that call it return on a table that can be read.  The data files
that are still to be produced are those of the `sources`: what is ahead of the cursor of the
reader, and the manifests after it.

* `getFileRound_spec`: a round of the loop of `GetFile` moves files from the sources to the list;
* `expand_spec`: the loop produces the next live entries of the sources, as long as its reads pass
  over none of them.
-/

namespace DuckIceberg

open Strings Stride ManifestReader

namespace IcebergMultiFileList

/-! ### The data files to come -/

/-- The manifest is opened under its path, its columns have the types `types`, and `chunks` are its
entries. -/
def ManifestIs (ctx : ClientContext) (path : String) (options : IcebergOptions)
    (op : ManifestFormat IcebergManifestEntry) (types : List LogicalType)
    (manifest : IcebergManifest) (chunks : List (List IcebergManifestEntry)) : Prop :=
  ∃ scan, openAvro ctx path options manifest.manifestPath = .ok scan ∧
    scan.returnTypes = types ∧ Readable op types scan chunks

/-- The deliveries of a manifest, once the reader `r` has opened it. -/
def manifestPieces (ctx : ClientContext) (l : IcebergMultiFileList) (r : ManifestReader)
    (op : ManifestFormat IcebergManifestEntry) (manifest : IcebergManifest) :
    List (Piece IcebergManifestEntry Error) :=
  match openAvro ctx l.path l.options manifest.manifestPath with
  | .ok scan => scan.stream.map (piece op (nameMap op scan) (r.layout scan))
  | .error _ => []

/-- The deliveries that the reader has not passed, manifest by manifest. -/
def sources (ctx : ClientContext) (l : IcebergMultiFileList) :
    List (List (Piece IcebergManifestEntry Error)) :=
  match l.dataManifestEntryReader, l.entryProducer with
  | some r, some op =>
    if r.isFinished then
      (l.dataManifests.drop l.currentDataManifest).map (manifestPieces ctx l r op)
    else
      (.rows (r.current op) :: r.ahead op) ::
        (l.dataManifests.drop (l.currentDataManifest + 1)).map (manifestPieces ctx l r op)
  | _, _ => []

theorem sources_reading {ctx : ClientContext} {l : IcebergMultiFileList} {r : ManifestReader}
    {op : ManifestFormat IcebergManifestEntry} (hr : l.dataManifestEntryReader = some r)
    (hp : l.entryProducer = some op) (hf : r.isFinished = false) :
    sources ctx l = (.rows (r.current op) :: r.ahead op) ::
      (l.dataManifests.drop (l.currentDataManifest + 1)).map (manifestPieces ctx l r op) := by
  simp [sources, hr, hp, hf]

theorem sources_finished {ctx : ClientContext} {l : IcebergMultiFileList} {r : ManifestReader}
    {op : ManifestFormat IcebergManifestEntry} (hr : l.dataManifestEntryReader = some r)
    (hp : l.entryProducer = some op) (hf : r.isFinished = true) :
    sources ctx l =
      (l.dataManifests.drop l.currentDataManifest).map (manifestPieces ctx l r op) := by
  simp [sources, hr, hp, hf]

/-- The data files of the sources. -/
def pending (sources : List (List (Piece IcebergManifestEntry Error))) :
    List IcebergManifestEntry :=
  sources.flatMap fun source => (rowsOf source).filter IcebergManifestEntry.live

/-- Reading `n` data files from the sources, each source as far as it goes, passes over none. -/
def SparesSources : ℕ → List (List (Piece IcebergManifestEntry Error)) → Prop
  | _, [] => True
  | n, source :: sources =>
    Spares IcebergManifestEntry.live IcebergManifestEntry.live n 0 source ∧
      SparesSources (n - (rowsOf source).countP IcebergManifestEntry.live) sources

theorem sparesSources_zero (sources : List (List (Piece IcebergManifestEntry Error))) :
    SparesSources 0 sources := by
  induction sources with
  | nil => trivial
  | cons source sources ih =>
    exact ⟨spares_of_le (Nat.zero_le _) source, by simpa using ih⟩

/-- A request for one file passes over none. -/
theorem sparesSources_one (sources : List (List (Piece IcebergManifestEntry Error))) :
    SparesSources 1 sources := by
  induction sources with
  | nil => trivial
  | cons source sources ih =>
    refine ⟨spares_one source, ?_⟩
    rcases Nat.eq_zero_or_pos ((rowsOf source).countP IcebergManifestEntry.live) with h | h
    · rw [h]
      exact ih
    · rw [show 1 - (rowsOf source).countP IcebergManifestEntry.live = 0 by omega]
      exact sparesSources_zero sources

/-- The reader has no chunk yet, or one that is laid out for `types`. -/
def Laid (types : List LogicalType) (r : ManifestReader) : Prop :=
  r.scan = none ∨ r.chunk.types = types

theorem Laid.layout {types : List LogicalType} {r : ManifestReader} (h : Laid types r)
    {scan : AvroScan} (hs : scan.returnTypes = types) : r.layout scan = types := by
  unfold ManifestReader.layout
  rcases h with h | h
  · rw [h]
    exact hs
  · split_ifs
    · exact hs
    · exact h

/-- The list has been initialised, and the files `files` are those it has produced and those of the
sources. -/
structure Expanding (ctx : ClientContext) (op : ManifestFormat IcebergManifestEntry)
    (types : List LogicalType) (files : List IcebergManifestEntry) (l : IcebergMultiFileList) :
    Prop where
  initialized : l.initialized = true
  producer : l.entryProducer = some op
  reader : ∃ r, l.dataManifestEntryReader = some r ∧ r.ReaderOf op ∧ r.skipDeleted = true ∧
    Laid types r ∧
    (r.isFinished = true ∨
      r.Reading ∧ r.Clean op ∧ l.currentDataManifest < l.dataManifests.length)
  manifests : ∀ manifest ∈ l.dataManifests,
    ∃ chunks, ManifestIs ctx l.path l.options op types manifest chunks
  files_eq : l.dataFiles ++ pending (sources ctx l) = files

/-! ### One round -/

/-- The entry readers leave out exactly the entries that are not live. -/
theorem formats_live {version : ℕ} {manifestOp : ManifestFormat IcebergManifest}
    {op : ManifestFormat IcebergManifestEntry} (h : formats version = some (manifestOp, op)) :
    op.wanted true = IcebergManifestEntry.live := by
  unfold formats at h
  split_ifs at h <;> · cases h; rfl

/-- The list once a call of `ReadEntries` has appended `taken`. -/
def afterRead (l : IcebergMultiFileList) (r : ManifestReader) (taken : List IcebergManifestEntry) :
    IcebergMultiFileList :=
  { l with
    dataManifestEntryReader := some r
    dataFiles := l.dataFiles ++ taken
    currentDataManifest :=
      if r.isFinished then l.currentDataManifest + 1 else l.currentDataManifest }

@[simp] theorem afterRead_dataFiles (l : IcebergMultiFileList) (r : ManifestReader)
    (taken : List IcebergManifestEntry) :
    (afterRead l r taken).dataFiles = l.dataFiles ++ taken := rfl

/-- One call of `ReadEntries` for the files up to `fileId`. -/
theorem readDataFiles_spec {op : ManifestFormat IcebergManifestEntry}
    (hop : op.wanted true = IcebergManifestEntry.live) {r : ManifestReader}
    {l : IcebergMultiFileList} {fileId : ℕ} (hr : r.Ready op) (hskip : r.skipDeleted = true)
    (hid : fileId < 2 ^ 63) (hle : l.dataFiles.length ≤ fileId)
    (hs : Spares IcebergManifestEntry.live IcebergManifestEntry.live
      (fileId + 1 - l.dataFiles.length) 0 (.rows (r.current op) :: r.ahead op)) :
    ∃ (r' : ManifestReader) (taken : List IcebergManifestEntry),
      readDataFiles fileId op r l = .next (afterRead l r' taken) ∧
      r'.Ready op ∧ Same r r' ∧
      taken ++ (r'.rest op).filter IcebergManifestEntry.live =
        (r.rest op).filter IcebergManifestEntry.live ∧
      (r'.Exhausted ∨ taken.length = fileId + 1 - l.dataFiles.length) := by
  set count := fileId + 1 - l.dataFiles.length with hcount
  have hremaining : idx (idx (fileId + 1) + (2 ^ 64 - l.dataFiles.length)) = count := by
    unfold idx
    omega
  obtain ⟨hready, offered, -, hkept, hend, hcall⟩ :=
    readEntries_ready op hr hskip (r.noWrap_of_le (show count ≤ 2 ^ 63 by omega))
  obtain ⟨n, hn⟩ := hcall _ _ (appendTo_rowWise op true) l.dataFiles
  have hlost := (hkept IcebergManifestEntry.live (fun x hx => by rw [← hop]; exact hx)).2
    (by rw [SparesRows, hskip, hop]; exact hs)
  rw [List.filter_append] at hlost
  refine ⟨after op count r, offered.filter IcebergManifestEntry.live, ?_, hready,
    after_same op count r, hlost, ?_⟩
  · simp only [readDataFiles, hremaining, hn]
    rw [← hop]
    rfl
  · rw [← List.countP_eq_length_filter, ← hop]
    exact hend

/-- The deliveries of a manifest do not depend on the reader, as long as its layout is right. -/
theorem manifestPieces_eq {ctx : ClientContext} {l : IcebergMultiFileList} {r : ManifestReader}
    {op : ManifestFormat IcebergManifestEntry} {types : List LogicalType}
    {manifest : IcebergManifest} {chunks : List (List IcebergManifestEntry)}
    (h : ManifestIs ctx l.path l.options op types manifest chunks)
    (hlaid : Laid types r) : manifestPieces ctx l r op manifest = chunks.map .rows := by
  obtain ⟨scan, hopen, htypes, hread⟩ := h
  simp only [manifestPieces, hopen, hlaid.layout htypes]
  exact hread.delivers

/-- What producing files leaves as it is. -/
structure Frame (l l' : IcebergMultiFileList) : Prop where
  path : l'.path = l.path
  options : l'.options = l.options
  dataManifests : l'.dataManifests = l.dataManifests
  snapshot : l'.snapshot = l.snapshot

theorem Frame.refl (l : IcebergMultiFileList) : Frame l l := ⟨rfl, rfl, rfl, rfl⟩

theorem Frame.trans {l₁ l₂ l₃ : IcebergMultiFileList} (h : Frame l₁ l₂) (h' : Frame l₂ l₃) :
    Frame l₁ l₃ :=
  ⟨h'.path.trans h.path, h'.options.trans h.options, h'.dataManifests.trans h.dataManifests,
    h'.snapshot.trans h.snapshot⟩

/-- The manifests that are left, and one more round when files are wanted. -/
def roundsLeft (fileId : ℕ) (l : IcebergMultiFileList) : ℕ :=
  l.dataManifests.length - l.currentDataManifest + if fileId < l.dataFiles.length then 0 else 1

section Rounds

variable {ctx : ClientContext} {op : ManifestFormat IcebergManifestEntry}
  {types : List LogicalType} {files : List IcebergManifestEntry} {l : IcebergMultiFileList}

theorem pending_cons (source : List (Piece IcebergManifestEntry Error))
    (rest : List (List (Piece IcebergManifestEntry Error))) :
    pending (source :: rest) =
      (rowsOf source).filter IcebergManifestEntry.live ++ pending rest := by
  simp [pending]

/-- The part of a round that reads, from a reader that stands on the manifest `current`. -/
theorem readDataFiles_expanding (hop : op.wanted true = IcebergManifestEntry.live)
    {r : ManifestReader} {fileId : ℕ} (hinit : l.initialized = true)
    (hprod : l.entryProducer = some op)
    (hmanifests : ∀ manifest ∈ l.dataManifests,
      ∃ chunks, ManifestIs ctx l.path l.options op types manifest chunks)
    (hreading : r.Reading) (hclean : r.Clean op) (hof : r.ReaderOf op)
    (hskip : r.skipDeleted = true) (htypes : r.chunk.types = types)
    (hcur : l.currentDataManifest < l.dataManifests.length) (hid : fileId < 2 ^ 63)
    (hle : l.dataFiles.length ≤ fileId) {rest : List (List (Piece IcebergManifestEntry Error))}
    (hrest : rest = (l.dataManifests.drop (l.currentDataManifest + 1)).map
      (manifestPieces ctx l r op))
    (hfiles : l.dataFiles ++ pending ((.rows (r.current op) :: r.ahead op) :: rest) = files)
    (hs : SparesSources (fileId + 1 - l.dataFiles.length)
      ((.rows (r.current op) :: r.ahead op) :: rest)) :
    ∃ l', readDataFiles fileId op r l = .next l' ∧ Expanding ctx op types files l' ∧
      SparesSources (fileId + 1 - l'.dataFiles.length) (sources ctx l') ∧
      roundsLeft fileId l' < roundsLeft fileId l ∧ Frame l l' := by
  obtain ⟨r', taken, hread, hready, hsame, htaken, hend⟩ :=
    readDataFiles_spec hop ⟨Or.inl hreading, hclean⟩ hskip hid hle hs.1
  have hof' : r'.ReaderOf op := hof.same hsame
  have hskip' : r'.skipDeleted = true := hsame.skipDeleted.trans hskip
  have hlaid : Laid types r' := Or.inr (hsame.types.trans htypes)
  -- the manifests after this one are seen alike by both readers
  have hpieces : ∀ l' : IcebergMultiFileList, l'.path = l.path → l'.options = l.options →
      (l.dataManifests.drop (l.currentDataManifest + 1)).map (manifestPieces ctx l' r' op) =
        rest := by
    intro l' hpath hoptions
    rw [hrest]
    refine List.map_congr_left fun manifest hmem => ?_
    obtain ⟨chunks, hm⟩ := hmanifests manifest (List.mem_of_mem_drop hmem)
    rw [manifestPieces_eq hm (Or.inr htypes),
      manifestPieces_eq (l := l') (by rw [hpath, hoptions]; exact hm) hlaid]
  have hhead : rowsOf (.rows (r.current op) :: r.ahead op) = r.rest op := rfl
  rw [pending_cons, hhead] at hfiles
  refine ⟨_, hread, ?_⟩
  rcases hready.reading_or with hreading' | hex
  · -- the call has its files, and the reader stays on the manifest
    have hfin : r'.isFinished = false := isFinished_of_reading hreading'
    have hlen : taken.length = fileId + 1 - l.dataFiles.length := by
      rcases hend with hex | hlen
      · rw [isFinished_of_exhausted hex] at hfin
        cases hfin
      · exact hlen
    have hl : (afterRead l r' taken).currentDataManifest = l.currentDataManifest := by
      simp [afterRead, hfin]
    have hsources : sources ctx (afterRead l r' taken) =
        (.rows (r'.current op) :: r'.ahead op) :: rest := by
      rw [sources_reading (l := afterRead l r' taken) rfl hprod hfin, hl]
      exact congrArg _ (hpieces _ rfl rfl)
    have hrest' : rowsOf (.rows (r'.current op) :: r'.ahead op) = r'.rest op := rfl
    refine ⟨⟨hinit, hprod, ⟨r', rfl, hof', hskip', hlaid, Or.inr ⟨hreading', hready.clean, ?_⟩⟩,
      hmanifests, ?_⟩, ?_, ?_, rfl, rfl, rfl, rfl⟩
    · rw [hl]
      exact hcur
    · rw [hsources, pending_cons, hrest', ← hfiles, ← htaken, afterRead_dataFiles]
      simp
    · rw [hsources, afterRead_dataFiles, List.length_append, hlen,
        show fileId + 1 - (l.dataFiles.length + (fileId + 1 - l.dataFiles.length)) = 0 by omega]
      exact sparesSources_zero _
    · have hlong : fileId < (afterRead l r' taken).dataFiles.length := by
        rw [afterRead_dataFiles, List.length_append, hlen]
        omega
      rw [roundsLeft, roundsLeft, hl, if_pos hlong, if_neg (by omega)]
      exact Nat.lt_succ_self _
  · -- the manifest is read to its end
    have hfin : r'.isFinished = true := isFinished_of_exhausted hex
    have hl : (afterRead l r' taken).currentDataManifest = l.currentDataManifest + 1 := by
      simp [afterRead, hfin]
    have hnil : r'.rest op = [] := by
      obtain ⟨h1, h2⟩ := view_exhausted op hex
      rw [ManifestReader.rest, h1, h2]
      rfl
    rw [hnil, List.filter_nil, List.append_nil] at htaken
    have hsources : sources ctx (afterRead l r' taken) = rest := by
      rw [sources_finished (l := afterRead l r' taken) rfl hprod hfin, hl]
      exact hpieces _ rfl rfl
    refine ⟨⟨hinit, hprod, ⟨r', rfl, hof', hskip', hlaid, Or.inl hfin⟩, hmanifests, ?_⟩,
      ?_, ?_, rfl, rfl, rfl, rfl⟩
    · rw [hsources, ← hfiles, afterRead_dataFiles, htaken, List.append_assoc]
    · have hn : fileId + 1 - (l.dataFiles ++ taken).length =
          fileId + 1 - l.dataFiles.length -
            (rowsOf (.rows (r.current op) :: r.ahead op)).countP IcebergManifestEntry.live := by
        rw [hhead, List.countP_eq_length_filter, ← htaken, List.length_append]
        omega
      rw [hsources, afterRead_dataFiles, hn]
      exact hs.2
    · have hlen : (afterRead l r' taken).dataManifests.length = l.dataManifests.length := rfl
      rw [roundsLeft, roundsLeft, hl, hlen, if_neg (show ¬ fileId < l.dataFiles.length by omega)]
      split_ifs <;> omega

/-- **One round** of the loop of `GetFile` leaves it, or goes on with fewer rounds left. -/
theorem getFileRound_spec (hop : op.wanted true = IcebergManifestEntry.live)
    (h : Expanding ctx op types files l) {fileId : ℕ} (hid : fileId < 2 ^ 63)
    (hs : SparesSources (fileId + 1 - l.dataFiles.length) (sources ctx l)) :
    (getFileRound ctx fileId l = .done (.ok (), l) ∧
      (fileId < l.dataFiles.length ∨ sources ctx l = [])) ∨
    ∃ l', getFileRound ctx fileId l = .next l' ∧ Expanding ctx op types files l' ∧
      SparesSources (fileId + 1 - l'.dataFiles.length) (sources ctx l') ∧
      roundsLeft fileId l' < roundsLeft fileId l ∧ Frame l l' := by
  by_cases hlt : fileId < l.dataFiles.length
  · exact Or.inl ⟨by rw [getFileRound, if_pos hlt], Or.inl hlt⟩
  have hle : l.dataFiles.length ≤ fileId := by omega
  obtain ⟨hinit, hprod, ⟨r, hr, hof, hskip, hlaid, hpos⟩, hmanifests, hfiles⟩ := h
  by_cases hfin : r.isFinished = true
  · rw [sources_finished hr hprod hfin] at hs hfiles ⊢
    cases hm : l.dataManifests[l.currentDataManifest]? with
    | none =>
      refine Or.inl ⟨?_, Or.inr ?_⟩
      · simp only [getFileRound, if_neg hlt, hr, hprod, if_pos hfin, hm]
      · rw [List.drop_eq_nil_of_le (by simpa using hm)]
        rfl
    | some manifest =>
      obtain ⟨hcur, hget⟩ := List.getElem?_eq_some_iff.1 hm
      have hmem : manifest ∈ l.dataManifests := List.mem_of_getElem? hm
      obtain ⟨chunks, scan, hopen, htypes, hread⟩ := hmanifests manifest hmem
      obtain ⟨r', hinstall, hfresh, hof', hskip'⟩ :=
        initializeWith_spec op hof
          (show Readable op (r.layout scan) scan chunks by rw [hlaid.layout htypes]; exact hread)
      have htypes' : r'.chunk.types = types := hfresh.types_eq.trans (hlaid.layout htypes)
      have hhead : manifestPieces ctx l r op manifest = chunks.map .rows :=
        manifestPieces_eq ⟨scan, hopen, htypes, hread⟩ hlaid
      have htail : (l.dataManifests.drop (l.currentDataManifest + 1)).map
          (manifestPieces ctx l r op) = (l.dataManifests.drop (l.currentDataManifest + 1)).map
          (manifestPieces ctx l r' op) := by
        refine List.map_congr_left fun m hm => ?_
        obtain ⟨cs, hcs⟩ := hmanifests m (List.mem_of_mem_drop hm)
        rw [manifestPieces_eq hcs hlaid, manifestPieces_eq hcs (Or.inr htypes')]
      rw [List.drop_eq_getElem_cons hcur, List.map_cons, hget, hhead, htail] at hs hfiles
      refine Or.inr ?_
      have hround : getFileRound ctx fileId l = readDataFiles fileId op r' l := by
        simp only [getFileRound, if_neg hlt, hr, hprod, if_pos hfin, hm, hopen, hinstall]
      rw [hround]
      refine readDataFiles_expanding hop hinit hprod hmanifests hfresh.reading
        ⟨chunks, hfresh.ahead_eq⟩ hof' (hskip'.trans hskip) htypes' hcur hid hle rfl ?_ ?_
      · rw [hfresh.current_eq, hfresh.ahead_eq]
        exact hfiles
      · rw [hfresh.current_eq, hfresh.ahead_eq]
        exact ⟨⟨sparesPiece_nil _, hs.1⟩, hs.2⟩
  · rcases hpos with hpos | ⟨hreading, hclean, hcur⟩
    · exact absurd hpos hfin
    have hfalse : r.isFinished = false := isFinished_of_reading hreading
    rw [sources_reading hr hprod hfalse] at hs hfiles
    refine Or.inr ?_
    have hround : getFileRound ctx fileId l = readDataFiles fileId op r l := by
      simp only [getFileRound, if_neg hlt, hr, hprod, if_neg hfin]
    have htypes : r.chunk.types = types := by
      obtain ⟨-, a, ha, -⟩ := hreading
      rcases hlaid with hnone | htypes
      · rw [hnone] at ha
        cases ha
      · exact htypes
    rw [hround]
    exact readDataFiles_expanding hop hinit hprod hmanifests hreading hclean hof hskip htypes
      hcur hid hle rfl hfiles hs

variable (ctx op types files) in
/-- What the loop of `GetFile` leaves. -/
def ExpandPost (fileId : ℕ) (l : IcebergMultiFileList)
    (out : Outcome IcebergMultiFileList Unit) : Prop :=
  out.1 = .ok () ∧ Expanding ctx op types files out.2 ∧
    (fileId < out.2.dataFiles.length ∨ out.2.dataFiles = files) ∧ Frame l out.2

theorem expandPost_done (hop : op.wanted true = IcebergManifestEntry.live) {fileId : ℕ}
    (hid : fileId < 2 ^ 63) (h : Expanding ctx op types files l)
    (hs : SparesSources (fileId + 1 - l.dataFiles.length) (sources ctx l))
    {out : Outcome IcebergMultiFileList Unit} (hb : getFileRound ctx fileId l = .done out) :
    ExpandPost ctx op types files fileId l out := by
  rcases getFileRound_spec hop h hid hs with ⟨hdone, hend⟩ | ⟨l', hnext, -⟩
  · rw [hdone] at hb
    cases hb
    refine ⟨rfl, h, ?_, Frame.refl l⟩
    rcases hend with hend | hnil
    · exact Or.inl hend
    · have hfiles := h.files_eq
      rw [hnil] at hfiles
      exact Or.inr (by simpa [pending] using hfiles)
  · rw [hnext] at hb
    cases hb

theorem expandPost_next (hop : op.wanted true = IcebergManifestEntry.live) {fileId : ℕ}
    (hid : fileId < 2 ^ 63) (h : Expanding ctx op types files l)
    (hs : SparesSources (fileId + 1 - l.dataFiles.length) (sources ctx l))
    {l' : IcebergMultiFileList} (hb : getFileRound ctx fileId l = .next l') :
    (Expanding ctx op types files l' ∧
        SparesSources (fileId + 1 - l'.dataFiles.length) (sources ctx l')) ∧
      roundsLeft fileId l' < roundsLeft fileId l ∧
      ∀ out, ExpandPost ctx op types files fileId l' out →
        ExpandPost ctx op types files fileId l out := by
  rcases getFileRound_spec hop h hid hs with ⟨hdone, -⟩ | ⟨l'', hnext, h1, h2, h3, h4⟩
  · rw [hdone] at hb
    cases hb
  · rw [hnext] at hb
    cases hb
    exact ⟨⟨h1, h2⟩, h3, fun out ho => ⟨ho.1, ho.2.1, ho.2.2.1, h4.trans ho.2.2.2⟩⟩

/-- **The loop of `GetFile`** produces files up to the one asked for, or all of them. -/
theorem expand_spec (hop : op.wanted true = IcebergManifestEntry.live)
    (h : Expanding ctx op types files l) {fileId : ℕ} (hid : fileId < 2 ^ 63)
    (hs : SparesSources (fileId + 1 - l.dataFiles.length) (sources ctx l)) :
    ∃ l', expand ctx fileId l = (.ok (), l') ∧ Expanding ctx op types files l' ∧
      (fileId < l'.dataFiles.length ∨ l'.dataFiles = files) ∧ Frame l l' := by
  have hfuel : roundsLeft fileId l < l.dataManifests.length - l.currentDataManifest + 3 := by
    unfold roundsLeft
    split_ifs <;> omega
  obtain ⟨⟨res, l'⟩, hrun, rfl, h1, h2, h3⟩ := Loop.run_spec
    (fun l => Expanding ctx op types files l ∧
      SparesSources (fileId + 1 - l.dataFiles.length) (sources ctx l))
    (roundsLeft fileId) (ExpandPost ctx op types files fileId)
    (fun _ _ hl hb => expandPost_done hop hid hl.1 hl.2 hb)
    (fun _ _ hl hb => expandPost_next hop hid hl.1 hl.2 hb) _ l ⟨h, hs⟩ hfuel
  exact ⟨l', by rw [expand, hrun]; rfl, h1, h2, h3⟩

end Rounds

end IcebergMultiFileList

end DuckIceberg
