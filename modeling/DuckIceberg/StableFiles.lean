import DuckIceberg.FileCalls

/-!
# A list that only grows

What the calls on an initialised list do to it, whatever the manifests hold and whichever of them
cannot be opened, in whichever calls.

* `Event`: a manifest is given to the reader, or its scan reports its end;
* `getFileRound_sound`: a round of the loop of `GetFile` keeps the list `Sound`, and takes the files
  it appends from the front of what is left;
* `files_stable`: so in any run of calls the files stay where they are, in the order of the
  manifests, and the manifests are read one after the other.
-/

namespace DuckIceberg

open Strings Stride ManifestReader

namespace IcebergMultiFileList

/-! ### Events -/

/-- What a round of the loop of `GetFile` does with the data manifest of this number. -/
inductive Event
  /-- the reader is given its scan -/
  | installed (manifest : ℕ)
  /-- its scan has reported its end -/
  | exhausted (manifest : ℕ)
  deriving DecidableEq, Repr

/-- The scan of the reader has reported its end, where the list was at `l` before. -/
def endOf (l l' : IcebergMultiFileList) : List Event :=
  if l'.dataManifestEntryReader.elim false isFinished then [.exhausted l.currentDataManifest] else []

/-- The events of the part of a round that reads. -/
def readEvents (fileId : ℕ) (op : ManifestFormat IcebergManifestEntry) (r : ManifestReader)
    (l : IcebergMultiFileList) : List Event :=
  match readDataFiles fileId op r l with
  | .done out => endOf l out.2
  | .next l' => endOf l l'

/-- The events of one round of the loop of `GetFile`. -/
def roundEvents (ctx : ClientContext) (fileId : ℕ) (l : IcebergMultiFileList) : List Event :=
  if fileId < l.dataFiles.length then []
  else
    match l.dataManifestEntryReader, l.entryProducer with
    | some r, some op =>
      if r.isFinished then
        match l.dataManifests[l.currentDataManifest]? with
        | none => []
        | some manifest =>
          match openAvro ctx l.path l.options manifest.manifestPath with
          | .error _ => []
          | .ok scan =>
            match r.initializeWith scan with
            | (.error _, _) => [.installed l.currentDataManifest]
            | (.ok _, r) => .installed l.currentDataManifest :: readEvents fileId op r l
      else readEvents fileId op r l
    | _, _ => []

/-- The rounds of the loop of `GetFile`. -/
def getFileStates (ctx : ClientContext) (fileId : ℕ) (l : IcebergMultiFileList) :
    List IcebergMultiFileList :=
  Loop.states (getFileRound ctx fileId) (l.dataManifests.length - l.currentDataManifest + 3) l

/-- The events of `GetFile`. -/
def getFileEvents (ctx : ClientContext) (fileId : ℕ) (l : IcebergMultiFileList) : List Event :=
  match initializeFiles ctx l with
  | (.error _, _) => []
  | (.ok _, l) => (getFileStates ctx fileId l).flatMap (roundEvents ctx fileId)

/-- The rounds of the loop of `GetTotalFileCount`. -/
def countStates (ctx : ClientContext) (l : IcebergMultiFileList) :
    List (ℕ × IcebergMultiFileList) :=
  Loop.states (countRound ctx) (rowBound ctx (initializeFiles ctx l).2 + 2) (l.dataFiles.length, l)

/-- The events of a call. -/
def callEvents (ctx : ClientContext) (l : IcebergMultiFileList) : Call → List Event
  | .bind => []
  | .getFile i => getFileEvents ctx i l
  | .getExpandResult => getFileEvents ctx 1 l
  | .getTotalFileCount | .getCardinality =>
    (countStates ctx l).flatMap fun st => getFileEvents ctx st.1 st.2

/-- The loop of `GetFile` is left. -/
def GetFileHalts (ctx : ClientContext) (fileId : ℕ) (l : IcebergMultiFileList) : Prop :=
  ∃ out, Loop.run (getFileRound ctx fileId)
    ((initializeFiles ctx l).2.dataManifests.length -
      (initializeFiles ctx l).2.currentDataManifest + 3) (initializeFiles ctx l).2 = some out

/-- All loops of a call are left. -/
def CallHalts (ctx : ClientContext) (l : IcebergMultiFileList) : Call → Prop
  | .bind => True
  | .getFile i => GetFileHalts ctx i l
  | .getExpandResult => GetFileHalts ctx 1 l
  | .getTotalFileCount | .getCardinality =>
    (∃ out, Loop.run (countRound ctx) (rowBound ctx (initializeFiles ctx l).2 + 2)
        (l.dataFiles.length, l) = some out) ∧
      ∀ st ∈ countStates ctx l, GetFileHalts ctx st.1 st.2

/-! ### Manifests that cannot be opened -/

/-- The files that a call in `ctx'` opens are those of `ctx`; to open them may throw there. -/
structure Interrupts (ctx ctx' : ClientContext) : Prop where
  joinPath : ctx'.joinPath = ctx.joinPath
  readAvro : ∀ path scan, ctx'.readAvro path = .ok scan → ctx.readAvro path = .ok scan

theorem Interrupts.refl (ctx : ClientContext) : Interrupts ctx ctx := ⟨rfl, fun _ _ h => h⟩

theorem Interrupts.trans {ctx₁ ctx₂ ctx₃ : ClientContext} (h : Interrupts ctx₁ ctx₂)
    (h' : Interrupts ctx₂ ctx₃) : Interrupts ctx₁ ctx₃ :=
  ⟨h'.joinPath.trans h.joinPath,
    fun path scan hscan => h.readAvro path scan (h'.readAvro path scan hscan)⟩

theorem fullPath_congr {ctx ctx' : ClientContext} (h : Interrupts ctx ctx') (path : String)
    (options : IcebergOptions) (file : String) :
    fullPath ctx' path options file = fullPath ctx path options file := by
  unfold fullPath IcebergUtils.getFullPath
  rw [h.joinPath]

theorem openAvro_of_interrupts {ctx ctx' : ClientContext} (h : Interrupts ctx ctx')
    {path : String} {options : IcebergOptions} {file : String} {scan : AvroScan}
    (hopen : openAvro ctx' path options file = .ok scan) :
    openAvro ctx path options file = .ok scan := by
  unfold openAvro at hopen ⊢
  rw [fullPath_congr h] at hopen
  obtain ⟨full, hfull, hopen⟩ := bind_eq_ok.1 hopen
  obtain ⟨found, hread, hopen⟩ := bind_eq_ok.1 hopen
  exact bind_eq_ok.2 ⟨full, hfull, bind_eq_ok.2 ⟨found, h.readAvro full found hread, hopen⟩⟩

/-! ### What is left -/

/-- The columns of the first data manifest, for which the chunk of the reader is laid out. -/
def firstTypes (ctx : ClientContext) (l : IcebergMultiFileList) : List LogicalType :=
  match l.dataManifests with
  | [] => []
  | manifest :: _ =>
    match openAvro ctx l.path l.options manifest.manifestPath with
    | .ok scan => scan.returnTypes
    | .error _ => []

/-- The deliveries of a manifest, into a chunk that is laid out for `types`. -/
def deliveries (ctx : ClientContext) (l : IcebergMultiFileList)
    (op : ManifestFormat IcebergManifestEntry) (types : List LogicalType)
    (manifest : IcebergManifest) : List (Piece IcebergManifestEntry Error) :=
  match openAvro ctx l.path l.options manifest.manifestPath with
  | .ok scan => scan.stream.map (piece op (nameMap op scan) types)
  | .error _ => []

/-- The entries of the data manifests from number `k` on that are not deleted. -/
def entriesFrom (ctx : ClientContext) (l : IcebergMultiFileList)
    (op : ManifestFormat IcebergManifestEntry) (types : List LogicalType) (k : ℕ) :
    List IcebergManifestEntry :=
  pending ((l.dataManifests.drop k).map (deliveries ctx l op types))

/-- What the list has not passed, where its reader is `r` and `k` is its cursor. -/
def left (ctx : ClientContext) (l : IcebergMultiFileList)
    (op : ManifestFormat IcebergManifestEntry) (types : List LogicalType) (r : ManifestReader)
    (k : ℕ) : List IcebergManifestEntry :=
  if r.isFinished then entriesFrom ctx l op types k
  else (r.rest op).filter IcebergManifestEntry.live ++ entriesFrom ctx l op types (k + 1)

theorem entriesFrom_of_lt {ctx : ClientContext} {l : IcebergMultiFileList}
    {op : ManifestFormat IcebergManifestEntry} {types : List LogicalType} {k : ℕ}
    {manifest : IcebergManifest} (h : l.dataManifests[k]? = some manifest) :
    entriesFrom ctx l op types k =
      (rowsOf (deliveries ctx l op types manifest)).filter IcebergManifestEntry.live ++
        entriesFrom ctx l op types (k + 1) := by
  obtain ⟨hlt, hget⟩ := List.getElem?_eq_some_iff.1 h
  rw [entriesFrom, List.drop_eq_getElem_cons hlt, hget, List.map_cons, pending_cons]
  rfl

/-! ### One read -/

section Reads

variable {op : ManifestFormat IcebergManifestEntry} {l : IcebergMultiFileList}

/-- **One call of `ReadEntries`**, whether it throws or not: the files it appends are taken from the
front of what the reader has not passed. -/
theorem readDataFiles_cases (hop : op.wanted true = IcebergManifestEntry.live)
    {r : ManifestReader} (hr : r.Reading) (hskip : r.skipDeleted = true) {fileId : ℕ}
    (hid : fileId < 2 ^ 63) (hle : l.dataFiles.length ≤ fileId) :
    ∃ (r' : ManifestReader) (taken : List IcebergManifestEntry), Same r r' ∧
      (taken ++ (r'.rest op).filter IcebergManifestEntry.live).Sublist
        ((r.rest op).filter IcebergManifestEntry.live) ∧
      ((∃ e, readDataFiles fileId op r l = .done (.error e,
          { l with
            dataManifestEntryReader := some r'
            dataFiles := l.dataFiles ++ taken }) ∧ r'.Reading) ∨
        readDataFiles fileId op r l = .next (afterRead l r' taken) ∧
          ∃ pre : List (List IcebergManifestEntry),
            r'.Exhausted ∧ r.ahead op = pre.map .rows ∨
              r'.Reading ∧ taken.length = fileId + 1 - l.dataFiles.length ∧
                r.ahead op = pre.map .rows ++ r'.ahead op) := by
  set count := fileId + 1 - l.dataFiles.length with hcount
  have hremaining : idx (idx (fileId + 1) + (2 ^ 64 - l.dataFiles.length)) = count := by
    unfold idx
    omega
  have hspec := readEntries_spec op (appendTo_rowWise op true) hr hskip
    (r.noWrap_of_le (show count ≤ 2 ^ 63 by omega)) l.dataFiles
  have hsub := pull_sublist count (op.wanted true) 0 (r.current op) (r.ahead op)
  have hscanned := pull_scanned count (op.wanted true) 0 (Nat.zero_le _) (r.current op) (r.ahead op)
  have hpassed := pull_ahead count (op.wanted true) 0 (r.current op) (r.ahead op)
  rcases hread : r.readEntries count (appendTo op) l.dataFiles with ⟨result, r', dataFiles⟩
  rw [hread] at hspec
  simp only [ReadPost] at hspec hsub hscanned hpassed
  generalize pull count (op.wanted true) 0 (r.current op) (r.ahead op) = p
    at hspec hsub hscanned hpassed
  obtain ⟨hfiles, hsame, hstop⟩ := hspec
  rw [hop] at hscanned
  have hfiles' : dataFiles = l.dataFiles ++ p.offered.filter IcebergManifestEntry.live := by
    rw [hfiles, ← hop]
    rfl
  have hsublist : ∀ rest : List IcebergManifestEntry, rest = p.current ++ rowsOf p.ahead ∨ rest = [] →
      (p.offered.filter IcebergManifestEntry.live ++ rest.filter IcebergManifestEntry.live).Sublist
        ((r.rest op).filter IcebergManifestEntry.live) := by
    rintro rest (rfl | rfl)
    · rw [← List.filter_append]
      exact hsub.filter _
    · rw [← List.filter_append, List.append_nil]
      exact ((List.sublist_append_left _ _).trans hsub).filter _
  refine ⟨r', p.offered.filter IcebergManifestEntry.live, hsame, ?_⟩
  rcases hstopped : p.stop with _ | _ | e
  · -- as many as were asked for
    rw [hstopped] at hstop
    obtain ⟨hok, hat⟩ := hstop
    rw [hstopped] at hpassed
    obtain ⟨pre, hpre⟩ := hpassed
    refine ⟨hsublist _ (Or.inl (by rw [rest, hat.current_eq, hat.ahead_eq])),
      Or.inr ⟨?_, pre, Or.inr ⟨hat.reading, ?_, by rw [hat.ahead_eq]; exact hpre⟩⟩⟩
    · simp only [readDataFiles, hremaining, hread, hok, hfiles', afterRead]
    · rw [← List.countP_eq_length_filter]
      simpa using hscanned.2.1 hstopped
  · -- the end of the manifest
    rw [hstopped] at hstop
    obtain ⟨hok, hexhausted⟩ := hstop
    obtain ⟨hcur, hahead⟩ := view_exhausted op hexhausted
    rw [hstopped] at hpassed
    obtain ⟨⟨pre, hpre⟩, -, -⟩ := hpassed
    refine ⟨hsublist _ (Or.inr (by rw [rest, hcur, hahead]; rfl)),
      Or.inr ⟨?_, pre, Or.inl ⟨hexhausted, hpre⟩⟩⟩
    simp only [readDataFiles, hremaining, hread, hok, hfiles', afterRead]
  · -- a row that throws, in front of which the reader is left
    rw [hstopped] at hstop
    obtain ⟨herror, hat⟩ := hstop
    refine ⟨hsublist _ (Or.inl (by rw [rest, hat.current_eq, hat.ahead_eq])),
      Or.inl ⟨e, ?_, hat.reading⟩⟩
    simp only [readDataFiles, hremaining, hread, herror, hfiles']

end Reads

/-! ### Sound lists -/

/-- The events of the manifests before number `k`. -/
def schedule (k : ℕ) : List Event :=
  (List.range k).flatMap fun i => [.installed i, .exhausted i]

theorem schedule_succ (k : ℕ) :
    schedule (k + 1) = schedule k ++ [.installed k, .exhausted k] := by
  rw [schedule, List.range_succ, List.flatMap_append, List.flatMap_singleton]
  rfl

/-- The reader stands on the manifest number `k`, or on none with `k` the next one, after these
events. -/
structure Placed (ctx : ClientContext) (op : ManifestFormat IcebergManifestEntry)
    (l₀ : IcebergMultiFileList) (log : List Event) (r : ManifestReader) (k : ℕ) : Prop where
  readerOf : r.ReaderOf op
  skipDeleted : r.skipDeleted = true
  laid : r.scan = none ∧ k = 0 ∨ r.scan ≠ none ∧ r.chunk.types = firstTypes ctx l₀
  log_eq : log = schedule k ++ if r.isFinished then [] else [.installed k]
  position : r.isFinished = true ∧ k ≤ l₀.dataManifests.length ∨
    r.Reading ∧ k < l₀.dataManifests.length

/-- The list has come from `l₀` by these events. -/
structure Sound (ctx : ClientContext) (op : ManifestFormat IcebergManifestEntry)
    (l₀ : IcebergMultiFileList) (log : List Event) (l : IcebergMultiFileList) : Prop where
  frame : Frame l₀ l
  initialized : l.initialized = true
  producer : l.entryProducer = some op
  reader : ∃ r, l.dataManifestEntryReader = some r ∧ Placed ctx op l₀ log r l.currentDataManifest

/-- What the list has not passed, with the content that the files have in `c`. -/
def leftOf (c : ClientContext) (op : ManifestFormat IcebergManifestEntry)
    (types : List LogicalType) (l₀ l : IcebergMultiFileList) : List IcebergManifestEntry :=
  l.dataManifestEntryReader.elim [] fun r => left c l₀ op types r l.currentDataManifest

/-- From `l` to `l'` the list has grown at its end, by files that `l` had not passed. -/
structure Advances (c : ClientContext) (op : ManifestFormat IcebergManifestEntry)
    (types : List LogicalType) (l₀ l l' : IcebergMultiFileList) : Prop where
  grows : l.dataFiles <+: l'.dataFiles
  takes : (l'.dataFiles ++ leftOf c op types l₀ l').Sublist (l.dataFiles ++ leftOf c op types l₀ l)

section Rounds

variable {ctx ctx' : ClientContext} {op : ManifestFormat IcebergManifestEntry}
  {types : List LogicalType} {l₀ l : IcebergMultiFileList} {log : List Event}

theorem Advances.refl (c : ClientContext) (l : IcebergMultiFileList) :
    Advances c op types l₀ l l :=
  ⟨List.prefix_refl _, List.Sublist.refl _⟩

theorem Advances.trans {c : ClientContext} {l₁ l₂ l₃ : IcebergMultiFileList}
    (h : Advances c op types l₀ l₁ l₂) (h' : Advances c op types l₀ l₂ l₃) :
    Advances c op types l₀ l₁ l₃ :=
  ⟨h.grows.trans h'.grows, h'.takes.trans h.takes⟩

/-- A manifest is opened with the content it has in `c`. -/
theorem left_initializeWith {c : ClientContext} (hc : Interrupts c ctx') {r : ManifestReader}
    {k : ℕ} (hof : r.ReaderOf op) {manifest : IcebergManifest}
    (hm : l₀.dataManifests[k]? = some manifest) {scan : AvroScan}
    (hopen : openAvro ctx' l₀.path l₀.options manifest.manifestPath = .ok scan)
    (hlayout : r.layout scan = types) :
    left c l₀ op types (r.initializeWith scan).2 k = entriesFrom c l₀ op types k := by
  obtain ⟨hchunk, hscan, -, -, -, -⟩ := initializeWith_types r scan
  have hunread : scan.finished = false := openAvro_unread hopen
  have hfin : (r.initializeWith scan).2.isFinished = false := by
    rw [isFinished, hscan]
    exact hunread
  have hname : (r.initializeWith scan).2.nameToVec = nameMap op scan := by
    unfold initializeWith
    rw [hof.nameMapping, nameMap]
    split
    · rename_i h
      rw [h]
    · rename_i h
      split_ifs <;> rw [h]
  have hused : (r.initializeWith scan).2.chunk.size ≤ (r.initializeWith scan).2.offset := by
    rw [hchunk]
    exact Nat.zero_le _
  obtain ⟨hcur, hahead⟩ := view_used_up op hused
  have hrest : (r.initializeWith scan).2.rest op =
      rowsOf (scan.stream.map (piece op (nameMap op scan) types)) := by
    rw [rest, hcur, hahead, pieces, hname, hchunk, hlayout, stream, hscan]
    rfl
  rw [left, hfin, entriesFrom_of_lt hm, hrest, deliveries, openAvro_of_interrupts hc hopen]
  rfl

/-- The chunk is laid out for the first manifest, whichever is opened. -/
theorem layout_firstTypes (hctx : Interrupts ctx ctx') {r : ManifestReader} {k : ℕ}
    (hlaid : r.scan = none ∧ k = 0 ∨ r.scan ≠ none ∧ r.chunk.types = firstTypes ctx l₀)
    {manifest : IcebergManifest} (hm : l₀.dataManifests[k]? = some manifest) {scan : AvroScan}
    (hopen : openAvro ctx' l₀.path l₀.options manifest.manifestPath = .ok scan) :
    r.layout scan = firstTypes ctx l₀ := by
  rw [ManifestReader.layout]
  rcases hlaid with ⟨hnone, rfl⟩ | htypes
  · rw [hnone, firstTypes]
    cases hms : l₀.dataManifests with
    | nil =>
      rw [hms] at hm
      cases hm
    | cons first others =>
      rw [hms] at hm
      cases hm
      simp only [openAvro_of_interrupts hctx hopen]
      rfl
  · rw [if_neg (by simpa using htypes.1)]
    exact htypes.2

/-- A round goes well: it keeps the list sound, after these events, and takes its files from what was
left, in every context of `C`; if it goes round again, fewer rounds are left. -/
def RoundSound (ctx : ClientContext) (op : ManifestFormat IcebergManifestEntry)
    (l₀ : IcebergMultiFileList) (C : ClientContext → Prop) (log : List Event) (fileId : ℕ)
    (l : IcebergMultiFileList) :
    Loop.Step IcebergMultiFileList (Outcome IcebergMultiFileList Unit) → Prop
  | .done out => Sound ctx op l₀ log out.2 ∧
      ∀ c, C c → Advances c op (firstTypes ctx l₀) l₀ l out.2
  | .next l' => Sound ctx op l₀ log l' ∧
      (∀ c, C c → Advances c op (firstTypes ctx l₀) l₀ l l') ∧
      roundsLeft fileId l' < roundsLeft fileId l

/-! #### The reading part of a round -/

/-- The list is about to read on with `r`, which stands on a manifest; in every context of `C` it has
not passed what the reader has not. -/
structure ReadsOn (ctx : ClientContext) (op : ManifestFormat IcebergManifestEntry)
    (l₀ : IcebergMultiFileList) (C : ClientContext → Prop) (log : List Event) (r : ManifestReader)
    (l : IcebergMultiFileList) : Prop where
  frame : Frame l₀ l
  initialized : l.initialized = true
  producer : l.entryProducer = some op
  reading : r.Reading
  placed : Placed ctx op l₀ log r l.currentDataManifest
  leftOf_eq : ∀ c, C c → leftOf c op (firstTypes ctx l₀) l₀ l =
    left c l₀ op (firstTypes ctx l₀) r l.currentDataManifest

/-- Reading leaves a reader on its manifest, or at the end of it and in front of the next. -/
theorem Placed.read {r r' : ManifestReader} {k : ℕ} (h : Placed ctx op l₀ log r k) (hr : r.Reading)
    (hsame : Same r r') (hend : r'.Reading ∨ r'.Exhausted) :
    Placed ctx op l₀ (log ++ if r'.isFinished then [.exhausted k] else []) r'
      (if r'.isFinished then k + 1 else k) := by
  obtain ⟨hof, hskip, hlaid, hlog, hpos⟩ := h
  have hfin := isFinished_of_reading hr
  obtain ⟨-, a, hscan, -⟩ := hr
  have hlt : k < l₀.dataManifests.length := by
    rcases hpos with ⟨hf, -⟩ | ⟨-, hlt⟩
    · rw [hfin] at hf
      cases hf
    · exact hlt
  -- a reader that stands on a manifest has a scan, and so has been laid out
  have htypes : r.chunk.types = firstTypes ctx l₀ := by
    rcases hlaid with ⟨hnone, -⟩ | ⟨-, htypes⟩
    · rw [hnone] at hscan
      cases hscan
    · exact htypes
  have hscan' : r'.scan ≠ none := by
    intro hnone
    have hcolumns := hsame.columns
    rw [hnone, hscan] at hcolumns
    cases hcolumns
  rw [hfin] at hlog
  refine ⟨hof.same hsame, hsame.skipDeleted.trans hskip,
    Or.inr ⟨hscan', hsame.types.trans htypes⟩, ?_, ?_⟩
  · rcases hend with hr' | hexhausted
    · rw [hlog, isFinished_of_reading hr']
      simp
    · rw [hlog, isFinished_of_exhausted hexhausted]
      simp [schedule_succ]
  · rcases hend with hr' | hexhausted
    · rw [isFinished_of_reading hr']
      exact Or.inr ⟨hr', hlt⟩
    · have hfin' := isFinished_of_exhausted hexhausted
      rw [hfin']
      exact Or.inl ⟨rfl, hlt⟩

/-- What a reader takes and what it then has not passed, it had not passed before. -/
theorem left_read (c : ClientContext) (types : List LogicalType) {r r' : ManifestReader}
    (hr : r.Reading) {taken : List IcebergManifestEntry}
    (hsub : (taken ++ (r'.rest op).filter IcebergManifestEntry.live).Sublist
      ((r.rest op).filter IcebergManifestEntry.live)) (k : ℕ) :
    (taken ++ left c l₀ op types r' (if r'.isFinished then k + 1 else k)).Sublist
      (left c l₀ op types r k) := by
  rw [left, left, isFinished_of_reading hr, if_neg Bool.false_ne_true]
  by_cases hfin' : r'.isFinished = true
  · rw [if_pos hfin', if_pos hfin']
    exact ((List.sublist_append_left _ _).trans hsub).append (List.Sublist.refl _)
  · rw [if_neg hfin', if_neg hfin', ← List.append_assoc]
    exact hsub.append (List.Sublist.refl _)

namespace ReadsOn

variable {C : ClientContext → Prop} {r r' : ManifestReader} {taken : List IcebergManifestEntry}
  {fileId : ℕ}

theorem sound_afterRead (h : ReadsOn ctx op l₀ C log r l) (hsame : Same r r')
    (hend : r'.Reading ∨ r'.Exhausted) :
    Sound ctx op l₀ (log ++ endOf l (afterRead l r' taken)) (afterRead l r' taken) :=
  ⟨h.frame.trans ⟨rfl, rfl, rfl, rfl⟩, h.initialized, h.producer, r', rfl,
    h.placed.read h.reading hsame hend⟩

theorem advances_afterRead (h : ReadsOn ctx op l₀ C log r l)
    (hsub : (taken ++ (r'.rest op).filter IcebergManifestEntry.live).Sublist
      ((r.rest op).filter IcebergManifestEntry.live)) (c : ClientContext) (hc : C c) :
    Advances c op (firstTypes ctx l₀) l₀ l (afterRead l r' taken) := by
  refine ⟨List.prefix_append _ _, ?_⟩
  rw [h.leftOf_eq c hc, afterRead_dataFiles, List.append_assoc]
  exact (List.Sublist.refl _).append (left_read c _ h.reading hsub _)

/-- An exception leaves the reader on its manifest. -/
theorem roundSound_error (h : ReadsOn ctx op l₀ C log r l) (hsame : Same r r')
    (hsub : (taken ++ (r'.rest op).filter IcebergManifestEntry.live).Sublist
      ((r.rest op).filter IcebergManifestEntry.live)) {e : Error}
    (hrun : readDataFiles fileId op r l = .done (.error e,
      { l with dataManifestEntryReader := some r', dataFiles := l.dataFiles ++ taken }))
    (hr' : r'.Reading) :
    RoundSound ctx op l₀ C (log ++ readEvents fileId op r l) fileId l
      (readDataFiles fileId op r l) := by
  -- the cursor stays where it was, as after a read that does not finish the manifest
  have hafter : { l with dataManifestEntryReader := some r', dataFiles := l.dataFiles ++ taken } =
      afterRead l r' taken := by
    rw [afterRead, isFinished_of_reading hr', if_neg Bool.false_ne_true]
  rw [readEvents, hrun, hafter]
  exact ⟨h.sound_afterRead hsame (Or.inl hr'), h.advances_afterRead hsub⟩

/-- At the end of its manifest there is one manifest fewer ahead. -/
theorem roundSound_exhausted (h : ReadsOn ctx op l₀ C log r l) (hsame : Same r r')
    (hsub : (taken ++ (r'.rest op).filter IcebergManifestEntry.live).Sublist
      ((r.rest op).filter IcebergManifestEntry.live)) (hle : l.dataFiles.length ≤ fileId)
    (hrun : readDataFiles fileId op r l = .next (afterRead l r' taken)) (hexhausted : r'.Exhausted) :
    RoundSound ctx op l₀ C (log ++ readEvents fileId op r l) fileId l
      (readDataFiles fileId op r l) := by
  have hlt : l.currentDataManifest < l.dataManifests.length := by
    rcases h.placed.position with ⟨hfin, -⟩ | ⟨-, hlt⟩
    · rw [isFinished_of_reading h.reading] at hfin
      cases hfin
    · rwa [h.frame.dataManifests]
  have hcur : (afterRead l r' taken).currentDataManifest = l.currentDataManifest + 1 :=
    if_pos (isFinished_of_exhausted hexhausted)
  have hlen : (afterRead l r' taken).dataManifests.length = l.dataManifests.length := rfl
  rw [readEvents, hrun]
  refine ⟨h.sound_afterRead hsame (Or.inr hexhausted), h.advances_afterRead hsub, ?_⟩
  rw [roundsLeft, roundsLeft, hlen, hcur, if_neg (show ¬ fileId < l.dataFiles.length by omega)]
  split_ifs <;> omega

/-- With its files the call is done. -/
theorem roundSound_enough (h : ReadsOn ctx op l₀ C log r l) (hsame : Same r r')
    (hsub : (taken ++ (r'.rest op).filter IcebergManifestEntry.live).Sublist
      ((r.rest op).filter IcebergManifestEntry.live)) (hle : l.dataFiles.length ≤ fileId)
    (hrun : readDataFiles fileId op r l = .next (afterRead l r' taken)) (hr' : r'.Reading)
    (htaken : taken.length = fileId + 1 - l.dataFiles.length) :
    RoundSound ctx op l₀ C (log ++ readEvents fileId op r l) fileId l
      (readDataFiles fileId op r l) := by
  have hcur : (afterRead l r' taken).currentDataManifest = l.currentDataManifest :=
    if_neg (by rw [isFinished_of_reading hr']; exact Bool.false_ne_true)
  have hlen : (afterRead l r' taken).dataManifests.length = l.dataManifests.length := rfl
  have hlong : fileId < (afterRead l r' taken).dataFiles.length := by
    rw [afterRead_dataFiles, List.length_append, htaken]
    omega
  rw [readEvents, hrun]
  refine ⟨h.sound_afterRead hsame (Or.inl hr'), h.advances_afterRead hsub, ?_⟩
  rw [roundsLeft, roundsLeft, hlen, hcur, if_pos hlong,
    if_neg (show ¬ fileId < l.dataFiles.length by omega)]
  omega

end ReadsOn

/-- The reading part of a round, by a reader `r` that stands on a manifest. -/
theorem readDataFiles_sound (hop : op.wanted true = IcebergManifestEntry.live)
    {C : ClientContext → Prop} {r : ManifestReader} (h : ReadsOn ctx op l₀ C log r l)
    {fileId : ℕ} (hid : fileId < 2 ^ 63) (hle : l.dataFiles.length ≤ fileId) :
    RoundSound ctx op l₀ C (log ++ readEvents fileId op r l) fileId l
      (readDataFiles fileId op r l) := by
  obtain ⟨r', taken, hsame, hsub, hres⟩ :=
    readDataFiles_cases hop h.reading h.placed.skipDeleted hid hle
  rcases hres with ⟨e, hrun, hr'⟩ | ⟨hrun, pre, ⟨hexhausted, -⟩ | ⟨hr', htaken, -⟩⟩
  · exact h.roundSound_error hsame hsub hrun hr'
  · exact h.roundSound_exhausted hsame hsub hle hrun hexhausted
  · exact h.roundSound_enough hsame hsub hle hrun hr' htaken

/-- **One round** of the loop of `GetFile`. -/
theorem getFileRound_sound (hop : op.wanted true = IcebergManifestEntry.live)
    (hctx : Interrupts ctx ctx') (h : Sound ctx op l₀ log l) {fileId : ℕ} (hid : fileId < 2 ^ 63) :
    RoundSound ctx op l₀ (fun c => Interrupts c ctx') (log ++ roundEvents ctx' fileId l) fileId l
      (getFileRound ctx' fileId l) := by
  obtain ⟨hframe, hinit, hprod, r, hr, hplaced⟩ := id h
  by_cases hlt : fileId < l.dataFiles.length
  · rw [getFileRound, roundEvents, if_pos hlt, if_pos hlt, List.append_nil]
    exact ⟨h, fun c _ => .refl c l⟩
  have hle : l.dataFiles.length ≤ fileId := by omega
  by_cases hfin : r.isFinished = true
  · cases hm : l.dataManifests[l.currentDataManifest]? with
    | none =>
      -- no manifest is left, and the call answers without a file
      simp only [getFileRound, roundEvents, if_neg hlt, hr, hprod, if_pos hfin, hm, List.append_nil]
      exact ⟨h, fun c _ => .refl c l⟩
    | some manifest =>
      cases hopen : openAvro ctx' l.path l.options manifest.manifestPath with
      | error e =>
        -- the next call will try to open it again
        simp only [getFileRound, roundEvents, if_neg hlt, hr, hprod, if_pos hfin, hm, hopen,
          List.append_nil]
        exact ⟨h, fun c _ => .refl c l⟩
      | ok scan =>
        have hm₀ : l₀.dataManifests[l.currentDataManifest]? = some manifest := by
          rw [← hframe.dataManifests]
          exact hm
        have hopen₀ : openAvro ctx' l₀.path l₀.options manifest.manifestPath = .ok scan := by
          rw [← hframe.path, ← hframe.options]
          exact hopen
        obtain ⟨hofr, hskip, hlaid, hlogeq, -⟩ := hplaced
        have hlayout : r.layout scan = firstTypes ctx l₀ := layout_firstTypes hctx hlaid hm₀ hopen₀
        obtain ⟨hchunk, hscan, hunfinished, hmapping, hvalidation, hskip'⟩ :=
          initializeWith_types r scan
        have hreading : (r.initializeWith scan).2.Reading :=
          ⟨hunfinished, scan, hscan, openAvro_unread hopen⟩
        have hfin' := isFinished_of_reading hreading
        have hplaced' : Placed ctx op l₀ (log ++ [.installed l.currentDataManifest])
            (r.initializeWith scan).2 l.currentDataManifest := by
          refine ⟨⟨hmapping.trans hofr.nameMapping, hvalidation.trans hofr.schemaValidation⟩,
            hskip'.trans hskip, Or.inr ⟨?_, ?_⟩, ?_, Or.inr ⟨hreading, ?_⟩⟩
          · simp [hscan]
          · rw [hchunk, ← hlayout]
            rfl
          · rw [hlogeq, hfin, hfin']
            simp
          · exact (List.getElem?_eq_some_iff.1 hm₀).1
        have hleft : ∀ c, Interrupts c ctx' → leftOf c op (firstTypes ctx l₀) l₀ l =
            left c l₀ op (firstTypes ctx l₀) (r.initializeWith scan).2 l.currentDataManifest := by
          intro c hc
          rw [left_initializeWith hc hofr hm₀ hopen₀ hlayout, leftOf, hr, Option.elim_some, left,
            if_pos hfin]
        rcases hinstall : r.initializeWith scan with ⟨e | u, r'⟩
        · -- `Initialize` has thrown, and the next call reads this scan without verifying its columns
          rw [hinstall] at hplaced' hleft
          simp only [getFileRound, roundEvents, if_neg hlt, hr, hprod, if_pos hfin, hm, hopen,
            hinstall]
          refine ⟨⟨hframe.trans ⟨rfl, rfl, rfl, rfl⟩, hinit, rfl, r', rfl, hplaced'⟩,
            fun c hc => ⟨List.prefix_refl _, ?_⟩⟩
          rw [hleft c hc]
          exact List.Sublist.refl _
        · rw [hinstall] at hplaced' hleft hreading
          simp only [getFileRound, roundEvents, if_neg hlt, hr, hprod, if_pos hfin, hm, hopen,
            hinstall]
          have hread := readDataFiles_sound hop ⟨hframe, hinit, hprod, hreading, hplaced', hleft⟩
            hid hle
          rwa [List.append_assoc] at hread
  · have hreading : r.Reading := by
      rcases hplaced.position with ⟨hf, -⟩ | ⟨hreading, -⟩
      · exact absurd hf hfin
      · exact hreading
    simp only [getFileRound, roundEvents, if_neg hlt, hr, hprod, if_neg hfin]
    refine readDataFiles_sound hop ⟨hframe, hinit, hprod, hreading, hplaced, fun c _ => ?_⟩ hid hle
    rw [leftOf, hr, Option.elim_some]

end Rounds

/-! ### One call -/

section Calls

variable {ctx ctx' : ClientContext} {op : ManifestFormat IcebergManifestEntry}
  {l₀ l : IcebergMultiFileList} {log : List Event}

variable (ctx op l₀) in
/-- A call in `ctx'` goes well: it leaves `l'` after these events. -/
structure CallSound (ctx' : ClientContext) (log : List Event) (l l' : IcebergMultiFileList) :
    Prop where
  sound : Sound ctx op l₀ log l'
  advances : ∀ c, Interrupts c ctx' → Advances c op (firstTypes ctx l₀) l₀ l l'

theorem CallSound.refl (h : Sound ctx op l₀ log l) : CallSound ctx op l₀ ctx' log l l :=
  ⟨h, fun c _ => .refl c l⟩

theorem CallSound.trans {log' : List Event} {l₁ l₂ l₃ : IcebergMultiFileList}
    (h : CallSound ctx op l₀ ctx' log l₁ l₂) (h' : CallSound ctx op l₀ ctx' log' l₂ l₃) :
    CallSound ctx op l₀ ctx' log' l₁ l₃ :=
  ⟨h'.sound, fun c hc => (h.advances c hc).trans (h'.advances c hc)⟩

/-- The path a call returns is that of the data file with this number. -/
def Returned (ctx' : ClientContext) (l₀ : IcebergMultiFileList) (fileId : ℕ)
    (out : Outcome IcebergMultiFileList String) : Prop :=
  ∀ file, out.1 = .ok file → file ≠ "" → ∃ dataFile, out.2.dataFiles[fileId]? = some dataFile ∧
    fullPath ctx' l₀.path l₀.options dataFile.filePath = .ok file

/-- **One call of `GetFile`.** -/
theorem getFile_sound (hop : op.wanted true = IcebergManifestEntry.live)
    (hctx : Interrupts ctx ctx') (h : Sound ctx op l₀ log l) {fileId : ℕ} (hid : fileId < 2 ^ 63) :
    GetFileHalts ctx' fileId l ∧
      CallSound ctx op l₀ ctx' (log ++ getFileEvents ctx' fileId l) l (getFile ctx' fileId l).2 ∧
      Returned ctx' l₀ fileId (getFile ctx' fileId l) := by
  have hinit : initializeFiles ctx' l = (.ok (), l) := initializeFiles_again h.initialized
  have hfuel : roundsLeft fileId l < l.dataManifests.length - l.currentDataManifest + 3 := by
    unfold roundsLeft
    split_ifs <;> omega
  have hround : ∀ log' m, CallSound ctx op l₀ ctx' log' l m →
      RoundSound ctx op l₀ (fun c => Interrupts c ctx') (log' ++ roundEvents ctx' fileId m) fileId m
        (getFileRound ctx' fileId m) := fun log' m hm => getFileRound_sound hop hctx hm.sound hid
  have hdone : ∀ log' m out, CallSound ctx op l₀ ctx' log' l m →
      getFileRound ctx' fileId m = .done out →
        CallSound ctx op l₀ ctx' (log' ++ roundEvents ctx' fileId m) l out.2 := by
    intro log' m out hm hb
    have hdone := hround log' m hm
    rw [hb] at hdone
    exact hm.trans ⟨hdone.1, hdone.2⟩
  have hnext : ∀ log' m m', CallSound ctx op l₀ ctx' log' l m →
      getFileRound ctx' fileId m = .next m' →
        CallSound ctx op l₀ ctx' (log' ++ roundEvents ctx' fileId m) l m' ∧
          roundsLeft fileId m' < roundsLeft fileId m := by
    intro log' m m' hm hb
    have hnext := hround log' m hm
    rw [hb] at hnext
    exact ⟨hm.trans ⟨hnext.1, hnext.2.1⟩, hnext.2.2⟩
  obtain ⟨⟨result, l'⟩, hrun, hcall⟩ := Loop.run_log (roundEvents ctx' fileId) _ _
    (fun log' out => CallSound ctx op l₀ ctx' log' l out.2) hdone hnext _ log l (.refl h) hfuel
  have hexpand : expand ctx' fileId l = (result, l') := by
    rw [expand, hrun]
    rfl
  have hevents : getFileEvents ctx' fileId l =
      (getFileStates ctx' fileId l).flatMap (roundEvents ctx' fileId) := by
    rw [getFileEvents, hinit]
  refine ⟨⟨(result, l'), by rw [hinit]; exact hrun⟩, ?_, ?_⟩
  · have hsnd : (getFile ctx' fileId l).2 = l' := by
      rw [getFile, hinit]
      dsimp only
      rw [hexpand]
      cases result with
      | error e => rfl
      | ok u => cases hget : l'.dataFiles[fileId]? <;> simp only [hget]
    rw [hevents, hsnd]
    exact hcall
  · intro file hfile hne
    rw [getFile, hinit] at hfile ⊢
    dsimp only at hfile ⊢
    rw [hexpand] at hfile ⊢
    cases result with
    | error e => cases hfile
    | ok u =>
      cases hget : l'.dataFiles[fileId]? with
      | none =>
        simp only [hget] at hfile
        cases hfile
        exact absurd rfl hne
      | some dataFile =>
        simp only [hget] at hfile ⊢
        refine ⟨dataFile, rfl, ?_⟩
        rw [← hcall.sound.frame.path, ← hcall.sound.frame.options]
        exact hfile

/-! ### Counting -/

/-- There is no more left than `rowBound` says. -/
theorem left_le (h : Sound ctx op l₀ log l) (c : ClientContext) (types : List LogicalType) :
    (l.dataFiles ++ leftOf c op types l₀ l).length ≤ rowBound c l := by
  obtain ⟨hframe, -, -, r, hr, -⟩ := h
  have hmanifest : ∀ manifest, (rowsOf (deliveries c l₀ op types manifest)).length ≤
      manifestBound c l manifest := by
    intro manifest
    rw [deliveries, manifestBound, hframe.path, hframe.options]
    cases openAvro c l₀.path l₀.options manifest.manifestPath with
    | error e => exact Nat.zero_le _
    | ok scan =>
      have hle := rowsOf_pieces_le op (nameMap op scan) types scan.stream
      simp only [rowsWithin, Nat.add_mul]
      omega
  have hentries : ∀ k, (entriesFrom c l₀ op types k).length ≤
      ((l.dataManifests.drop k).map (manifestBound c l)).sum := by
    intro k
    rw [entriesFrom, ← hframe.dataManifests]
    refine (pending_le _).trans ?_
    rw [List.map_map]
    exact List.sum_le_sum fun m _ => hmanifest m
  rw [List.length_append, rowBound, leftOf, hr, Option.elim_some, Option.elim_some, left]
  by_cases hfin : r.isFinished = true
  · rw [if_pos hfin]
    have hle := hentries l.currentDataManifest
    omega
  · rw [if_neg hfin, List.length_append]
    have hrest : ((r.rest op).filter IcebergManifestEntry.live).length ≤
        rowsWithin r.stream.length := (List.length_filter_le _ _).trans (rest_le r)
    have hdrop := hentries (l.currentDataManifest + 1)
    have htail := sum_drop_succ_le (manifestBound c l) l.dataManifests l.currentDataManifest
    omega

/-- The files that the list can come to have. -/
def reach (c : ClientContext) (op : ManifestFormat IcebergManifestEntry)
    (types : List LogicalType) (l₀ l : IcebergMultiFileList) : ℕ :=
  (l.dataFiles ++ leftOf c op types l₀ l).length

theorem length_le_reach {c : ClientContext} {types : List LogicalType}
    {l' : IcebergMultiFileList} (h : Advances c op types l₀ l l') :
    l'.dataFiles.length ≤ reach c op types l₀ l := by
  have hle := h.takes.length_le
  rw [List.length_append] at hle
  rw [reach]
  omega

/-- **One call of `GetTotalFileCount`.** -/
theorem getTotalFileCount_sound (hop : op.wanted true = IcebergManifestEntry.live)
    (hctx : Interrupts ctx ctx') (h : Sound ctx op l₀ log l)
    (hfit : reach ctx op (firstTypes ctx l₀) l₀ l < 2 ^ 63) :
    CallHalts ctx' l .getTotalFileCount ∧
      CallSound ctx op l₀ ctx' (log ++ callEvents ctx' l .getTotalFileCount) l
        (getTotalFileCount ctx' l).2 := by
  have hinit : initializeFiles ctx' l = (.ok (), l) := initializeFiles_again h.initialized
  -- the files before the number that is asked for have been produced
  have hget : ∀ log' (st : ℕ × IcebergMultiFileList), CallSound ctx op l₀ ctx' log' l st.2 →
      st.1 ≤ st.2.dataFiles.length →
        GetFileHalts ctx' st.1 st.2 ∧
          CallSound ctx op l₀ ctx' (log' ++ getFileEvents ctx' st.1 st.2) l
            (getFile ctx' st.1 st.2).2 ∧ Returned ctx' l₀ st.1 (getFile ctx' st.1 st.2) := by
    intro log' st hst hle
    have hlt : st.1 < 2 ^ 63 := by
      have hreach := length_le_reach (hst.advances ctx hctx)
      omega
    obtain ⟨hhalts, hcall, hreturned⟩ := getFile_sound hop hctx hst.sound hlt
    exact ⟨hhalts, hst.trans hcall, hreturned⟩
  have hdone : ∀ log' (st : ℕ × IcebergMultiFileList) out,
      (CallSound ctx op l₀ ctx' log' l st.2 ∧ st.1 ≤ st.2.dataFiles.length) →
        countRound ctx' st = .done out →
          CallSound ctx op l₀ ctx' (log' ++ getFileEvents ctx' st.1 st.2) l out.2 := by
    rintro log' st out ⟨hst, hle⟩ hb
    obtain ⟨-, hcall, -⟩ := hget log' st hst hle
    rw [countRound] at hb
    rcases hrun : getFile ctx' st.1 st.2 with ⟨e | file, l'⟩
    · rw [hrun] at hb hcall
      cases hb
      exact hcall
    · rw [hrun] at hb hcall
      simp only at hb
      split_ifs at hb
      cases hb
      exact hcall
  have hnext : ∀ log' (st st' : ℕ × IcebergMultiFileList),
      (CallSound ctx op l₀ ctx' log' l st.2 ∧ st.1 ≤ st.2.dataFiles.length) →
        countRound ctx' st = .next st' →
          (CallSound ctx op l₀ ctx' (log' ++ getFileEvents ctx' st.1 st.2) l st'.2 ∧
            st'.1 ≤ st'.2.dataFiles.length) ∧
            reach ctx' op (firstTypes ctx l₀) l₀ l - st'.1 <
              reach ctx' op (firstTypes ctx l₀) l₀ l - st.1 := by
    rintro log' st st' ⟨hst, hle⟩ hb
    obtain ⟨-, hcall, hreturned⟩ := hget log' st hst hle
    rw [countRound] at hb
    rcases hrun : getFile ctx' st.1 st.2 with ⟨e | file, l'⟩
    · rw [hrun] at hb
      cases hb
    · rw [hrun] at hb hcall hreturned
      simp only at hb
      split_ifs at hb with hempty
      cases hb
      obtain ⟨dataFile, hfound, -⟩ := hreturned file rfl hempty
      have hlt : st.1 < l'.dataFiles.length := (List.getElem?_eq_some_iff.1 hfound).1
      have hreach := length_le_reach (hcall.advances ctx' (.refl ctx'))
      simp only at hreach
      exact ⟨⟨hcall, hlt⟩, by simp only; omega⟩
  have hfuel : reach ctx' op (firstTypes ctx l₀) l₀ l - l.dataFiles.length < rowBound ctx' l + 2 := by
    have hbound := left_le h ctx' (firstTypes ctx l₀)
    rw [reach]
    omega
  obtain ⟨out, hrun, hcall⟩ := Loop.run_log
    (fun st : ℕ × IcebergMultiFileList => getFileEvents ctx' st.1 st.2)
    (fun log' st => CallSound ctx op l₀ ctx' log' l st.2 ∧ st.1 ≤ st.2.dataFiles.length)
    (fun st => reach ctx' op (firstTypes ctx l₀) l₀ l - st.1)
    (fun log' out => CallSound ctx op l₀ ctx' log' l out.2) hdone hnext (rowBound ctx' l + 2) log
    (l.dataFiles.length, l) ⟨.refl h, le_refl _⟩ hfuel
  have hstates : countStates ctx' l =
      Loop.states (countRound ctx') (rowBound ctx' l + 2) (l.dataFiles.length, l) := by
    rw [countStates, hinit]
  have hhalts : ∀ st ∈ countStates ctx' l, GetFileHalts ctx' st.1 st.2 := by
    rw [hstates]
    intro st hst
    obtain ⟨log', hlog', hle⟩ := Loop.forall_states
      (fun st : ℕ × IcebergMultiFileList =>
        ∃ log', CallSound ctx op l₀ ctx' log' l st.2 ∧ st.1 ≤ st.2.dataFiles.length)
      (by
        rintro st st' ⟨log', hinv⟩ hb
        exact ⟨_, (hnext log' st st' hinv hb).1⟩)
      _ ⟨log, .refl h, le_refl _⟩ st hst
    exact (hget log' st hlog' hle).1
  refine ⟨⟨⟨out, by rw [hinit]; exact hrun⟩, hhalts⟩, ?_⟩
  have hcount : getTotalFileCount ctx' l = out := by
    rw [getTotalFileCount, hinit]
    simp only [hrun, Option.getD_some]
  rw [hcount, callEvents, hstates]
  exact hcall

theorem answer_snd {α : Type} (f : α → Answer) (out : Outcome IcebergMultiFileList α) :
    (answer f out).2 = out.2 := by
  obtain ⟨e | a, l'⟩ := out <;> rfl

/-- **One call**, of whatever kind. -/
theorem call_sound (hop : op.wanted true = IcebergManifestEntry.live) (hctx : Interrupts ctx ctx')
    (h : Sound ctx op l₀ log l) (hfit : reach ctx op (firstTypes ctx l₀) l₀ l < 2 ^ 63)
    {c : Call} (hc : c.wants ≤ 2 ^ 63) :
    CallHalts ctx' l c ∧ CallSound ctx op l₀ ctx' (log ++ callEvents ctx' l c) l (call ctx' l c).2 := by
  cases c with
  | bind =>
    refine ⟨trivial, ?_⟩
    rw [call, answer_snd, bind, initializeFiles_again h.initialized, callEvents, List.append_nil]
    exact .refl h
  | getFile i =>
    obtain ⟨hhalts, hcall, -⟩ := getFile_sound hop hctx h hc
    rw [call, answer_snd]
    exact ⟨hhalts, hcall⟩
  | getExpandResult =>
    obtain ⟨hhalts, hcall, -⟩ := getFile_sound hop hctx h (show 1 < 2 ^ 63 by norm_num)
    have hsnd : (getExpandResult ctx' l).2 = (getFile ctx' 1 l).2 := by
      rw [getExpandResult]
      rcases getFile ctx' 1 l with ⟨e | file, l'⟩ <;> rfl
    rw [call, answer_snd, hsnd]
    exact ⟨hhalts, hcall⟩
  | getTotalFileCount =>
    rw [call, answer_snd]
    exact getTotalFileCount_sound hop hctx h hfit
  | getCardinality =>
    have hsnd : (getCardinality ctx' l).2 = (getTotalFileCount ctx' l).2 := by
      rw [getCardinality]
      rcases getTotalFileCount ctx' l with ⟨e | n, l'⟩ <;> rfl
    rw [call, answer_snd, hsnd]
    exact getTotalFileCount_sound hop hctx h hfit

end Calls

/-! ### Runs -/

/-- The list after these calls, each made in its own context. -/
def after (l : IcebergMultiFileList) (calls : List (ClientContext × Call)) : IcebergMultiFileList :=
  calls.foldl (fun l c => (call c.1 l c.2).2) l

/-- The events of these calls. -/
def runEvents : List (ClientContext × Call) → IcebergMultiFileList → List Event
  | [], _ => []
  | c :: calls, l => callEvents c.1 l c.2 ++ runEvents calls (call c.1 l c.2).2

/-- The entries of the data manifests that are not deleted, in the order of the manifest list. -/
def dataEntries (ctx : ClientContext) (l : IcebergMultiFileList) : List IcebergManifestEntry :=
  l.entryProducer.elim [] fun op => entriesFrom ctx l op (firstTypes ctx l) 0

/-- **The list is sound and stable**: what these calls do to it once it is initialised. -/
structure Stable (ctx : ClientContext) (l₀ : IcebergMultiFileList)
    (calls : List (ClientContext × Call)) : Prop where
  /-- The data files only grow at their end. -/
  grows : ∀ pre post, calls = pre ++ post → (after l₀ pre).dataFiles <+: (after l₀ calls).dataFiles
  /-- They are data files of the manifests, in the order of the manifest list. -/
  sublist : (after l₀ calls).dataFiles.Sublist (dataEntries ctx l₀)
  /-- The manifests are installed one after the other, each when the one before is exhausted. -/
  events : runEvents calls l₀ <+: schedule l₀.dataManifests.length
  /-- The cursor has passed no manifest whose scan has not reported its end. -/
  cursor : (after l₀ calls).currentDataManifest ≤ l₀.dataManifests.length ∧
    ∀ k < (after l₀ calls).currentDataManifest, .exhausted k ∈ runEvents calls l₀
  /-- Every call returns or throws. -/
  halts : ∀ pre c post, calls = pre ++ c :: post → CallHalts c.1 (after l₀ pre) c.2
  /-- A file that was returned stays where it is. -/
  returned : ∀ pre ctx' i post, calls = pre ++ (ctx', .getFile i) :: post → ∀ file,
    (getFile ctx' i (after l₀ pre)).1 = .ok file → file ≠ "" →
    ∃ dataFile, (after l₀ calls).dataFiles[i]? = some dataFile ∧
      fullPath ctx' l₀.path l₀.options dataFile.filePath = .ok file

section Runs

variable {ctx : ClientContext} {op : ManifestFormat IcebergManifestEntry}
  {l₀ : IcebergMultiFileList}

theorem after_snoc (l : IcebergMultiFileList) (calls : List (ClientContext × Call))
    (c : ClientContext × Call) : after l (calls ++ [c]) = (call c.1 (after l calls) c.2).2 :=
  List.foldl_concat _ _ _ _

theorem runEvents_snoc (l : IcebergMultiFileList) (calls : List (ClientContext × Call))
    (c : ClientContext × Call) :
    runEvents (calls ++ [c]) l = runEvents calls l ++ callEvents c.1 (after l calls) c.2 := by
  induction calls generalizing l with
  | nil => simp [runEvents, after]
  | cons c' calls ih =>
    rw [List.cons_append, runEvents, ih, runEvents, List.append_assoc]
    rfl

/-- The calls of a run: the files they open are those of `ctx`, where they can be opened, and their
indices are below `2^63`. -/
def Interrupted (ctx : ClientContext) (calls : List (ClientContext × Call)) : Prop :=
  ∀ c ∈ calls, Interrupts ctx c.1 ∧ c.2.wants ≤ 2 ^ 63

/-- **Any calls** keep the list sound. -/
theorem after_sound (hop : op.wanted true = IcebergManifestEntry.live)
    (h : Sound ctx op l₀ [] l₀) (hfit : reach ctx op (firstTypes ctx l₀) l₀ l₀ < 2 ^ 63)
    {calls : List (ClientContext × Call)} (hcalls : Interrupted ctx calls) :
    CallSound ctx op l₀ ctx (runEvents calls l₀) l₀ (after l₀ calls) ∧
      (∀ pre c post, calls = pre ++ c :: post → CallHalts c.1 (after l₀ pre) c.2) ∧
      ∀ pre post, calls = pre ++ post →
        (after l₀ pre).dataFiles <+: (after l₀ calls).dataFiles := by
  induction calls using List.reverseRecOn with
  | nil =>
    refine ⟨.refl h, fun pre c post heq => by simp at heq, fun pre post heq => ?_⟩
    rw [(List.append_eq_nil_iff.1 heq.symm).1]
  | append_singleton calls c ih =>
    obtain ⟨hbefore, hc⟩ := List.forall_mem_append.1 hcalls
    obtain ⟨hctx, hwants⟩ := hc c List.mem_cons_self
    obtain ⟨hsound, hhalts, hgrows⟩ := ih hbefore
    have hfit' : reach ctx op (firstTypes ctx l₀) l₀ (after l₀ calls) < 2 ^ 63 :=
      lt_of_le_of_lt (hsound.advances ctx (.refl ctx)).takes.length_le hfit
    obtain ⟨hhalts', hcall⟩ := call_sound hop hctx hsound.sound hfit' hwants
    rw [after_snoc, runEvents_snoc]
    refine ⟨⟨hcall.sound, fun c' hc' =>
      (hsound.advances c' hc').trans (hcall.advances c' (hc'.trans hctx))⟩, ?_, ?_⟩
    · intro pre c' post heq
      rcases List.eq_nil_or_concat post with rfl | ⟨post', last, rfl⟩
      · obtain ⟨rfl, hlast⟩ := List.append_inj' heq rfl
        cases hlast
        exact hhalts'
      · rw [List.concat_eq_append, ← List.cons_append, ← List.append_assoc] at heq
        exact hhalts pre c' post' (List.append_inj' heq rfl).1
    · intro pre post heq
      rcases List.eq_nil_or_concat post with rfl | ⟨post', last, rfl⟩
      · rw [List.append_nil] at heq
        rw [← heq, after_snoc]
      · rw [List.concat_eq_append, ← List.append_assoc] at heq
        exact (hgrows pre post' (List.append_inj' heq rfl).1).trans (hcall.advances ctx hctx).grows

/-- What `InitializeFiles` leaves. -/
theorem sound_initialized {path : String} {options : IcebergOptions}
    (h : initializeFiles ctx (ofPath path options) = (.ok (), l₀)) :
    ∃ op, op.wanted true = IcebergManifestEntry.live ∧ l₀.entryProducer = some op ∧
      Sound ctx op l₀ [] l₀ ∧ l₀.dataFiles = [] ∧
      leftOf ctx op (firstTypes ctx l₀) l₀ l₀ = entriesFrom ctx l₀ op (firstTypes ctx l₀) 0 := by
  obtain ⟨snapshot, manifestOp, op, chunks, hs, hf, hm⟩ := initializes_of_ok rfl h
  obtain ⟨r, hinit⟩ := initializeFiles_spec (l := ofPath path options) rfl hs hf hm
  rw [h] at hinit
  cases hinit
  have hfin : ({ make op with skipDeleted := true } : ManifestReader).isFinished = true := rfl
  refine ⟨op, formats_live hf, rfl, ⟨Frame.refl _, rfl, rfl, _, rfl, ⟨rfl, rfl⟩, rfl,
    Or.inl ⟨rfl, rfl⟩, ?_, Or.inl ⟨hfin, Nat.zero_le _⟩⟩, rfl, ?_⟩
  · rw [hfin]
    rfl
  · rfl

/-- The expected events are in order. -/
theorem schedule_mono {k n : ℕ} (h : k ≤ n) : schedule k <+: schedule n := by
  induction n with
  | zero => rw [Nat.le_zero.1 h]
  | succ n ih =>
    rcases Nat.lt_or_ge n k with hlt | hge
    · rw [show k = n + 1 by omega]
    · rw [schedule_succ]
      exact (ih hge).trans (List.prefix_append _ _)

/-- **The files are stable**, whatever the manifests hold, whichever of them cannot be opened in which
calls, and in whatever order the calls are made. -/
theorem files_stable {path : String} {options : IcebergOptions}
    (h : initializeFiles ctx (ofPath path options) = (.ok (), l₀))
    (hfit : (dataEntries ctx l₀).length < 2 ^ 63) {calls : List (ClientContext × Call)}
    (hcalls : Interrupted ctx calls) : Stable ctx l₀ calls := by
  obtain ⟨op, hop, hprod, hsound, hnil, hleft⟩ := sound_initialized h
  have hentries : dataEntries ctx l₀ = entriesFrom ctx l₀ op (firstTypes ctx l₀) 0 := by
    rw [dataEntries, hprod]
    rfl
  have hreach : reach ctx op (firstTypes ctx l₀) l₀ l₀ < 2 ^ 63 := by
    rw [reach, hleft, hnil, List.nil_append, ← hentries]
    exact hfit
  obtain ⟨hafter, hhalts, hgrows⟩ := after_sound hop hsound hreach hcalls
  obtain ⟨hframe, hinit, -, r, hr, hplaced⟩ := hafter.sound
  refine ⟨hgrows, ?_, ?_, ⟨?_, ?_⟩, hhalts, ?_⟩
  · have htakes := (hafter.advances ctx (.refl ctx)).takes
    rw [hnil, hleft, List.nil_append, ← hentries] at htakes
    exact (List.sublist_append_left _ _).trans htakes
  · rw [hplaced.log_eq]
    rcases hplaced.position with ⟨hfin, hle⟩ | ⟨hreading, hlt⟩
    · rw [hfin, if_pos rfl, List.append_nil]
      exact schedule_mono hle
    · rw [isFinished_of_reading hreading]
      refine List.IsPrefix.trans ?_ (schedule_mono (Nat.succ_le_of_lt hlt))
      rw [schedule_succ]
      exact (List.prefix_append_right_inj _).2 ⟨[.exhausted _], rfl⟩
  · rcases hplaced.position with ⟨-, hle⟩ | ⟨-, hlt⟩
    · exact hle
    · exact hlt.le
  · intro k hk
    rw [hplaced.log_eq, schedule]
    refine List.mem_append_left _ (List.mem_flatMap.2 ⟨k, List.mem_range.2 hk, ?_⟩)
    exact List.mem_cons_of_mem _ List.mem_cons_self
  · rintro pre ctx' i post rfl file hfile hne
    obtain ⟨hpre, hrest⟩ := List.forall_mem_append.1 hcalls
    obtain ⟨hctx, hwants⟩ := hrest _ List.mem_cons_self
    obtain ⟨-, -, hreturned⟩ := getFile_sound hop hctx
      (after_sound hop hsound hreach hpre).1.sound hwants
    obtain ⟨dataFile, hget, hpath⟩ := hreturned file hfile hne
    obtain ⟨others, hothers⟩ := hgrows (pre ++ [(ctx', .getFile i)]) post (by simp)
    refine ⟨dataFile, ?_, hpath⟩
    rw [after_snoc, call, answer_snd] at hothers
    rw [← hothers, List.getElem?_append_left (List.getElem?_eq_some_iff.1 hget).1]
    exact hget

/-- A table with two data manifests. -/
def twoManifests : TableFiles :=
  manifestFiles [(⟨"m.avro", 1, .data⟩, [[.ofPath .deleted "d", .ofPath .added "a"]]),
    (⟨"n.avro", 2, .data⟩, [[.ofPath .added "b"]])] noParquet

/-- A session in which the second of them cannot be opened. -/
def secondMissing : ClientContext :=
  { twoManifests.context with
    readAvro path :=
      if path = "n.avro" then .error (TableFiles.missing path) else twoManifests.context.readAvro path }

theorem secondMissing_interrupts : Interrupts twoManifests.context secondMissing := by
  refine ⟨rfl, fun path scan h => ?_⟩
  change (if path = "n.avro" then _ else _) = _ at h
  split_ifs at h
  exact h

/-- Files are counted while the second manifest is missing, and again when it is there. -/
theorem files_stable_missing : Stable twoManifests.context
    (initializeFiles twoManifests.context (ofPath "v1.metadata.json" {})).2
    [(twoManifests.context, .getFile 0), (secondMissing, .getTotalFileCount),
      (twoManifests.context, .getTotalFileCount)] := by
  have hinit : (initializeFiles twoManifests.context (ofPath "v1.metadata.json" {})).1 = .ok () := by
    decide +kernel
  have hlen : (dataEntries twoManifests.context
      (initializeFiles twoManifests.context (ofPath "v1.metadata.json" {})).2).length = 2 := by
    decide +kernel
  have hrun : initializeFiles twoManifests.context (ofPath "v1.metadata.json" {}) =
      (.ok (), (initializeFiles twoManifests.context (ofPath "v1.metadata.json" {})).2) := by
    rw [← hinit]
  refine files_stable hrun (by rw [hlen]; norm_num) (List.forall_mem_cons.2 ⟨⟨.refl _, by decide⟩,
    List.forall_mem_cons.2 ⟨⟨secondMissing_interrupts, by decide⟩,
      List.forall_mem_singleton.2 ⟨.refl _, by decide⟩⟩⟩)

end Runs

end IcebergMultiFileList

end DuckIceberg
