import DuckIceberg.ResumedDeletes

/-!
# What the delete manifests deliver

What `ProcessDeletes` has ahead is a list of manifests, each with its deliveries: the first may have
been read in part by a call that threw.

* `collect_unbroken`: where all deliveries are rows, the loop collects the entries that reading each
  manifest to its end keeps;
* `collect_breaksOff`: otherwise it throws at the first delivery that is none, and a later call goes
  on behind it.
-/

namespace DuckIceberg

open Strings Stride ManifestReader

namespace IcebergMultiFileList

variable {ctx : ClientContext} {path : String} {options : IcebergOptions}
  {op : ManifestFormat IcebergManifestEntry} {r r' : ManifestReader} {l : IcebergMultiFileList}

/-! ### One manifest -/

/-- What is thrown comes before the deliveries. -/
def throwFirst : Except Error Unit → List (Piece IcebergManifestEntry Error) →
    List (Piece IcebergManifestEntry Error)
  | .error e, ps => .fails e :: ps
  | .ok _, ps => ps

/-- What a reader gets of a scan: what `Initialize` throws, and the deliveries under the columns that
it has mapped. -/
def scanPieces (op : ManifestFormat IcebergManifestEntry) (types : List LogicalType)
    (scan : AvroScan) : List (Piece IcebergManifestEntry Error) :=
  match populate op.populateNameMapping scan.columns.zipIdx .empty with
  | (.error e, m) => throwFirst (.error e) (scan.stream.map (piece op m types))
  | (.ok _, m) =>
    throwFirst
      (if op.verifySchema m then .ok ()
        else .error ⟨.invalidInput, "Invalid schema detected in a manifest/manifest entry"⟩)
      (scan.stream.map (piece op m types))

/-- What a manifest delivers into a chunk with these column types.  One that cannot be opened throws
at every attempt. -/
def openedPieces (ctx : ClientContext) (path : String) (options : IcebergOptions)
    (op : ManifestFormat IcebergManifestEntry) (types : List LogicalType) (m : IcebergManifest) :
    List (Piece IcebergManifestEntry Error) :=
  match openAvro ctx path options m.manifestPath with
  | .error e => [.stuck e]
  | .ok scan => scanPieces op types scan

/-- The reader has what `Initialize` leaves to it. -/
theorem scanPieces_initializeWith (hr : r.ReaderOf op) (scan : AvroScan) :
    scanPieces op (r.layout scan) scan =
      throwFirst (r.initializeWith scan).1 ((r.initializeWith scan).2.ahead op) := by
  have hahead : ∀ m, ({ r.install scan with nameToVec := m } : ManifestReader).ahead op =
      scan.stream.map (piece op m (r.layout scan)) := by
    intro m
    have hused : (r.install scan).chunk.size ≤ (r.install scan).offset := by
      rw [install_chunk]
      exact Nat.zero_le _
    rw [(view_used_up op (r := { r.install scan with nameToVec := m }) hused).2, pieces]
    show List.map (piece op m (r.install scan).chunk.types) _ = _
    rw [install_chunk]
    rfl
  unfold scanPieces initializeWith
  rw [hr.nameMapping, hr.schemaValidation]
  rcases populate op.populateNameMapping scan.columns.zipIdx .empty with ⟨e | u, m⟩
  · dsimp only
    rw [← hahead m]
  · dsimp only
    rw [← hahead m]
    split_ifs <;> rfl

/-- A manifest is delivered when all of its deliveries are rows. -/
theorem delivered_iff {types : List LogicalType} {m : IcebergManifest}
    {chunks : List (List IcebergManifestEntry)} :
    Delivered ctx path options op types m chunks ↔
      openedPieces ctx path options op types m = chunks.map .rows := by
  unfold Delivered openedPieces
  cases hopen : openAvro ctx path options m.manifestPath with
  | error e =>
    refine iff_of_false (fun ⟨_, h, _⟩ => nomatch h) fun h => ?_
    cases chunks <;> cases h
  | ok scan =>
    have hunread := openAvro_unread hopen
    dsimp only
    unfold scanPieces
    constructor
    · rintro ⟨_, heq, hread⟩
      obtain rfl := Except.ok.inj heq
      obtain ⟨hpop, hverify, -, hdelivers⟩ := hread
      unfold nameMap at hverify hdelivers
      rcases hp : populate op.populateNameMapping scan.columns.zipIdx .empty with ⟨e | u, m⟩
      · rw [hp] at hpop
        cases hpop
      · rw [hp] at hverify hdelivers
        dsimp only at hverify hdelivers ⊢
        rw [if_pos hverify, hdelivers]
        rfl
    · intro h
      refine ⟨scan, rfl, ?_⟩
      have hname : nameMap op scan =
          (populate op.populateNameMapping scan.columns.zipIdx .empty).2 := rfl
      rcases hp : populate op.populateNameMapping scan.columns.zipIdx .empty with ⟨e | u, m⟩
      · rw [hp] at h
        cases chunks <;> cases h
      · rw [hp] at h hname
        dsimp only at h
        split_ifs at h with hverify
        · exact ⟨by rw [hp], by rw [hname]; exact hverify, hunread, by rw [hname]; exact h⟩
        · cases chunks <;> cases h

/-- A manifest is delivered when no delivery throws. -/
theorem delivered_of_unbroken {types : List LogicalType} {m : IcebergManifest}
    (h : Unbroken (openedPieces ctx path options op types m)) :
    Delivered ctx path options op types m (chunksOf (openedPieces ctx path options op types m)) :=
  delivered_iff.2 h

/-- Deliveries that begin with one that throws. -/
inductive Breaks : List (Piece IcebergManifestEntry Error) → Prop
  | fails (e : Error) (rest : List (Piece IcebergManifestEntry Error)) : Breaks (.fails e :: rest)
  | stuck (e : Error) (rest : List (Piece IcebergManifestEntry Error)) : Breaks (.stuck e :: rest)

/-- Where a reader is left by these deliveries: behind one that is over, and in front of one that stays
as it is, or in front of a manifest that cannot be opened. -/
def LeftBefore (op : ManifestFormat IcebergManifestEntry) (r : ManifestReader) :
    List (Piece IcebergManifestEntry Error) → Prop
  | .fails _ :: rest => r.At op [] rest
  | .stuck e :: rest => r.isFinished = true ∨ r.At op [] (.stuck e :: rest)
  | _ => False

/-- A reader that leaves out deleted entries, wherever it stands. -/
structure Waiting (op : ManifestFormat IcebergManifestEntry) (r : ManifestReader) : Prop where
  standing : Standing op r
  skip_eq : r.skipDeleted = true

theorem Idle.waiting (h : Idle op r) : Waiting op r :=
  ⟨⟨h.readerOf, fun hf => by rw [h.finished] at hf; cases hf⟩, h.skip_eq⟩

theorem Waiting.idle (h : Waiting op r) (hf : r.isFinished = true) : Idle op r :=
  ⟨h.standing.readerOf, h.skip_eq, hf⟩

theorem waiting_at {ps : List (Piece IcebergManifestEntry Error)} (hr : r.ReaderOf op)
    (hskip : r.skipDeleted = true) (hat : r.At op [] ps) : Waiting op r :=
  ⟨⟨hr, fun _ => ⟨hat.reading, hat.current_eq⟩⟩, hskip⟩

/-- Reading to the end throws at the first delivery that throws. -/
theorem readAll_breaks {chunks : List (List IcebergManifestEntry)}
    {tail : List (Piece IcebergManifestEntry Error)} (htail : Breaks tail) (hr : r.ReaderOf op)
    (hskip : r.skipDeleted = true) (hat : r.At op [] (chunks.map .rows ++ tail))
    (acc : List IcebergManifestEntry) :
    ∃ e r' acc', readAll op r acc = (.error e, r', acc') ∧ Waiting op r' ∧
      LeftBefore op r' tail ∧ r'.isFinished = false := by
  cases htail with
  | fails e rest =>
    obtain ⟨r', hread, hstopped, hsame⟩ := readAll_spec op (stopsAt_fails e rest) hat acc
    exact ⟨e, r', _, hread, waiting_at (hr.same hsame) (hsame.skipDeleted.trans hskip) hstopped,
      hstopped, isFinished_of_reading hstopped.reading⟩
  | stuck e rest =>
    obtain ⟨r', hread, hstopped, hsame⟩ := readAll_spec op (stopsAt_stuck e rest) hat acc
    exact ⟨e, r', _, hread, waiting_at (hr.same hsame) (hsame.skipDeleted.trans hskip) hstopped,
      Or.inr hstopped, isFinished_of_reading hstopped.reading⟩

/-- A manifest that throws at a delivery, or before all of them. -/
theorem scanInto_breaks {types : List LogicalType} {m : IcebergManifest} (hr : Idle op r)
    (htypes : ∀ scan, openAvro ctx path options m.manifestPath = .ok scan → r.layout scan = types)
    {chunks : List (List IcebergManifestEntry)} {tail : List (Piece IcebergManifestEntry Error)}
    (htail : Breaks tail)
    (heq : openedPieces ctx path options op types m = chunks.map .rows ++ tail)
    (acc : List IcebergManifestEntry) :
    ∃ e r' acc', scanInto ctx path options op r m.manifestPath acc = (.error e, r', acc') ∧
      Waiting op r' ∧ LeftBefore op r' tail := by
  unfold openedPieces at heq
  unfold scanInto
  cases hopen : openAvro ctx path options m.manifestPath with
  | error e =>
    rw [hopen] at heq
    refine ⟨e, r, acc, rfl, hr.waiting, ?_⟩
    cases chunks with
    | nil =>
      obtain rfl : tail = [.stuck e] := heq.symm
      exact Or.inl hr.finished
    | cons _ _ => cases heq
  | ok scan =>
    have hinit := scanPieces_initializeWith hr.readerOf scan
    rw [htypes scan hopen] at hinit
    rw [hopen] at heq
    dsimp only at heq ⊢
    rw [hinit] at heq
    have hstand := standing_initializeWith hr.readerOf (openAvro_unread hopen)
    have hskip : (r.initializeWith scan).2.skipDeleted = true :=
      (initializeWith_types r scan).2.2.2.2.2.trans hr.skip_eq
    rcases hinstall : r.initializeWith scan with ⟨e | u, r₁⟩
    · rw [hinstall] at heq hstand hskip
      have hfinished : r₁.isFinished = false := (isFinished_installed (openAvro_unread hopen) hinstall).1
      obtain ⟨hreading, hcurrent⟩ := hstand.reading hfinished
      refine ⟨e, r₁, acc, rfl, ⟨hstand, hskip⟩, ?_⟩
      cases chunks with
      | nil =>
        obtain rfl : tail = .fails e :: r₁.ahead op := heq.symm
        exact ⟨hreading, hcurrent, rfl⟩
      | cons _ _ => cases heq
    · rw [hinstall] at heq hstand hskip
      have hfinished : r₁.isFinished = false := (isFinished_installed (openAvro_unread hopen) hinstall).1
      obtain ⟨hreading, hcurrent⟩ := hstand.reading hfinished
      obtain ⟨e, r', acc', hread, hwaiting, hleft, -⟩ :=
        readAll_breaks htail hstand.readerOf hskip ⟨hreading, hcurrent, heq⟩ acc
      exact ⟨e, r', acc', hread, hwaiting, hleft⟩

/-! ### Manifests, one after the other -/

theorem layoutFor_append (r : ManifestReader) {ms : List IcebergManifest} (h : ms ≠ [])
    (ms' : List IcebergManifest) :
    layoutFor ctx path options r (ms ++ ms') = layoutFor ctx path options r ms := by
  cases ms with
  | nil => exact absurd rfl h
  | cons m ms => rfl

/-- Manifests without a delivery that throws are collected. -/
theorem collectFrom_unbroken {types : List LogicalType} {ms : List IcebergManifest}
    (ms' : List IcebergManifest) (hr : Idle op r)
    (htypes : layoutFor ctx path options r (ms ++ ms') = types)
    (h : ∀ m ∈ ms, Unbroken (openedPieces ctx path options op types m))
    (acc : List IcebergManifestEntry) :
    ∃ r', collectFrom ctx path options op ms r acc =
        (.ok (), r', acc ++ ms.flatMap (fun m => keptEntries op true
          (chunksOf (openedPieces ctx path options op types m))), ms.length) ∧
      Idle op r' ∧ layoutFor ctx path options r' ms' = types := by
  cases ms with
  | nil => exact ⟨r, by simp [collectFrom], hr, htypes⟩
  | cons m ms =>
    have hne : m :: ms ≠ [] := List.cons_ne_nil m ms
    rw [layoutFor_append r hne] at htypes
    subst htypes
    obtain ⟨r', hfrom, hidle, hlay⟩ :=
      collectFrom_delivered hr (fun m hm => delivered_of_unbroken (h m hm)) acc
    refine ⟨r', hfrom, hidle, ?_⟩
    rw [hlay ms', if_neg hne]

/-- The loop throws at the first manifest that throws. -/
theorem collectFrom_breaks {types : List LogicalType} {pre post : List IcebergManifest}
    {m : IcebergManifest} (hr : Idle op r)
    (htypes : layoutFor ctx path options r (pre ++ m :: post) = types)
    (hpre : ∀ m ∈ pre, Unbroken (openedPieces ctx path options op types m))
    {chunks : List (List IcebergManifestEntry)} {tail : List (Piece IcebergManifestEntry Error)}
    (htail : Breaks tail)
    (heq : openedPieces ctx path options op types m = chunks.map .rows ++ tail)
    (acc : List IcebergManifestEntry) :
    ∃ e r' acc', collectFrom ctx path options op (pre ++ m :: post) r acc =
        (.error e, r', acc', pre.length) ∧ Waiting op r' ∧ LeftBefore op r' tail := by
  obtain ⟨r₁, hfrom, hidle, hlay⟩ := collectFrom_unbroken _ hr htypes hpre acc
  have hlayout : ∀ scan, openAvro ctx path options m.manifestPath = .ok scan →
      r₁.layout scan = types := by
    intro scan hopen
    rw [← hlay, layoutFor_cons hopen]
  obtain ⟨e, r', acc', hscan, hwaiting, hleft⟩ := scanInto_breaks hidle hlayout htail heq _
  refine ⟨e, r', acc', ?_, hwaiting, hleft⟩
  rw [collectFrom_append hfrom, collectFrom, hscan]
  rfl

/-! ### The loop, wherever it begins -/

/-- What a call has ahead of it: the manifests from the cursor on, each with its deliveries, of which
the first may have been read in part. -/
def upcoming (ctx : ClientContext) (op : ManifestFormat IcebergManifestEntry) (r : ManifestReader)
    (l : IcebergMultiFileList) : List (IcebergManifest × List (Piece IcebergManifestEntry Error)) :=
  match l.deleteManifests.drop l.currentDeleteManifest with
  | [] => []
  | m :: ms =>
    let opened := openedPieces ctx l.path l.options op (layoutFor ctx l.path l.options r (m :: ms))
    (m, if r.isFinished then opened m else r.ahead op) :: ms.map fun m => (m, opened m)

theorem upcoming_manifests (ctx : ClientContext) (op : ManifestFormat IcebergManifestEntry)
    (r : ManifestReader) (l : IcebergMultiFileList) :
    (upcoming ctx op r l).map Prod.fst = l.deleteManifests.drop l.currentDeleteManifest := by
  unfold upcoming
  cases l.deleteManifests.drop l.currentDeleteManifest with
  | nil => rfl
  | cons m ms =>
    simp only [List.map_cons, List.map_map]
    exact congrArg (m :: ·) (List.map_id ms)

/-- Between two manifests, all that is ahead is still to be opened. -/
theorem upcoming_finished (hf : r.isFinished = true) :
    upcoming ctx op r l = (l.deleteManifests.drop l.currentDeleteManifest).map fun m =>
      (m, openedPieces ctx l.path l.options op (layoutFor ctx l.path l.options r
        (l.deleteManifests.drop l.currentDeleteManifest)) m) := by
  unfold upcoming
  cases l.deleteManifests.drop l.currentDeleteManifest with
  | nil => rfl
  | cons m ms =>
    dsimp only
    rw [if_pos hf]
    rfl

/-- In a manifest, the rest of it is ahead, and then the others. -/
theorem upcoming_reading (hf : r.isFinished = false) {m : IcebergManifest}
    (hm : l.deleteManifests[l.currentDeleteManifest]? = some m)
    (hscan : r.scan.isNone = false) :
    upcoming ctx op r l = (m, r.ahead op) ::
      (l.deleteManifests.drop (l.currentDeleteManifest + 1)).map fun m =>
        (m, openedPieces ctx l.path l.options op r.chunk.types m) := by
  obtain ⟨hlt, hget⟩ := List.getElem?_eq_some_iff.1 hm
  unfold upcoming layoutFor
  rw [List.drop_eq_getElem_cons hlt, hget]
  dsimp only
  rw [hf, hscan]
  rfl

/-- The entries that are collected from deliveries that are all rows. -/
def gathered (op : ManifestFormat IcebergManifestEntry)
    (sources : List (IcebergManifest × List (Piece IcebergManifestEntry Error))) :
    List IcebergManifestEntry :=
  sources.flatMap fun s => keptEntries op true (chunksOf s.2)

theorem collect_of_run {out : Except Error Unit × CollectState}
    (h : Loop.run (collectRound ctx) (collectFuel ctx l) (l, []) = some out) :
    collect ctx l = out := by
  show (Loop.run (collectRound ctx) (collectFuel ctx l) (l, [])).getD _ = out
  rw [h]
  rfl

/-- A call at the end of the manifests collects nothing. -/
theorem collect_end (hm : l.deleteManifests[l.currentDeleteManifest]? = none) :
    collect ctx l = (.ok (), l, []) :=
  collect_of_run (Loop.run_succ_done (by simp only [collectRound, hm]) _)

variable (ctx path options) in
/-- Where a reader is in a manifest whose deliveries are all rows, it reads it to its end. -/
theorem readAll_unbroken (hr : Waiting op r) (hf : r.isFinished = false)
    (h : Unbroken (r.ahead op)) (acc : List IcebergManifestEntry) :
    ∃ r', readAll op r acc = (.ok (), r', acc ++ keptEntries op true (chunksOf (r.ahead op))) ∧
      Idle op r' ∧ ∀ ms, layoutFor ctx path options r' ms = r.chunk.types := by
  obtain ⟨hreading, hcurrent⟩ := hr.standing.reading hf
  have hat : r.At op [] ((chunksOf (r.ahead op)).map .rows ++ []) :=
    ⟨hreading, hcurrent, by rw [List.append_nil]; exact h⟩
  obtain ⟨r', hread, hexhausted, hsame⟩ := readAll_spec op stopsAt_nil hat acc
  have hexhausted : r'.Exhausted := hexhausted
  rw [hr.skip_eq] at hread
  refine ⟨r', hread, ⟨hr.standing.readerOf.same hsame, hsame.skipDeleted.trans hr.skip_eq,
    isFinished_of_exhausted hexhausted⟩, fun ms => ?_⟩
  obtain ⟨-, -, scan, hscan, -⟩ := hexhausted
  rw [layoutFor, hscan, if_neg (by simp), hsame.types]

/-- **A call that meets no delivery that throws** collects from all that is ahead. -/
theorem collect_unbroken (hp : l.entryProducer = some op)
    (hreader : l.deleteManifestEntryReader = some r) (hr : Waiting op r)
    (h : ∀ s ∈ upcoming ctx op r l, Unbroken s.2) :
    ∃ r', collect ctx l = (.ok (),
        l.withCursor r' (l.currentDeleteManifest + (upcoming ctx op r l).length),
        gathered op (upcoming ctx op r l)) ∧ Waiting op r' := by
  by_cases hf : r.isFinished = true
  · have hidle := hr.idle hf
    rw [upcoming_finished hf] at h ⊢
    obtain ⟨r', hfrom, hidle', -⟩ := collectFrom_unbroken [] hidle
      (by rw [List.append_nil]) (fun m hm => h _ (List.mem_map_of_mem hm)) []
    refine ⟨r', ?_, hidle'.waiting⟩
    rw [collect_eq hp hreader hidle.readerOf hf, hfrom]
    simp only [gathered, List.flatMap_map, List.length_map, List.nil_append]
  have hf : r.isFinished = false := by simpa using hf
  cases hm : l.deleteManifests[l.currentDeleteManifest]? with
  | none =>
    have hnil : upcoming ctx op r l = [] := by
      unfold upcoming
      rw [List.drop_eq_nil_of_le (List.getElem?_eq_none_iff.1 hm)]
    refine ⟨r, ?_, hr⟩
    rw [collect_end hm, hnil, List.length_nil, Nat.add_zero, withCursor_self hreader]
    rfl
  | some m =>
    obtain ⟨⟨-, scan, hscan, -⟩, -⟩ := hr.standing.reading hf
    rw [upcoming_reading hf hm (by rw [hscan]; rfl)] at h ⊢
    obtain ⟨r₁, hread, hidle, hlay⟩ :=
      readAll_unbroken ctx l.path l.options hr hf (h _ List.mem_cons_self) []
    obtain ⟨r', hfrom, hidle', -⟩ := collectFrom_unbroken [] hidle (hlay _)
      (fun m' hm' => h _ (List.mem_cons_of_mem _ (List.mem_map_of_mem hm')))
      ([] ++ keptEntries op true (chunksOf (r.ahead op)))
    refine ⟨r', collect_of_run ?_, hidle'.waiting⟩
    rw [run_collect_reading ctx hp hreader hr.standing hf hm, hread]
    dsimp only
    rw [hfrom]
    simp only [gathered, List.flatMap_cons, List.flatMap_map, List.length_cons, List.length_map,
      List.nil_append]
    rw [Nat.add_assoc, Nat.add_comm 1]

/-- Manifests of which one throws, each with its deliveries. -/
theorem map_eq_breaks {f : IcebergManifest → List (Piece IcebergManifestEntry Error)}
    {ms : List IcebergManifest}
    {pre post : List (IcebergManifest × List (Piece IcebergManifestEntry Error))}
    {m : IcebergManifest} {ps : List (Piece IcebergManifestEntry Error)}
    (h : ms.map (fun m => (m, f m)) = pre ++ (m, ps) :: post) :
    ∃ ms₁ ms₂, ms = ms₁ ++ m :: ms₂ ∧ pre = ms₁.map (fun m => (m, f m)) ∧ f m = ps := by
  obtain ⟨ms₁, rest, rfl, rfl, hrest⟩ := List.map_eq_append_iff.1 h
  obtain ⟨m', ms₂, rfl, hm, -⟩ := List.map_eq_cons_iff.1 hrest
  obtain ⟨rfl, rfl⟩ := Prod.mk.inj hm
  exact ⟨ms₁, ms₂, rfl, rfl, rfl⟩

/-- **A call that meets a delivery that throws** throws, and leaves the cursor at its manifest. -/
theorem collect_breaksOff (hp : l.entryProducer = some op)
    (hreader : l.deleteManifestEntryReader = some r) (hr : Waiting op r)
    {pre post : List (IcebergManifest × List (Piece IcebergManifestEntry Error))}
    {m : IcebergManifest} {chunks : List (List IcebergManifestEntry)}
    {tail : List (Piece IcebergManifestEntry Error)}
    (heq : upcoming ctx op r l = pre ++ (m, chunks.map .rows ++ tail) :: post)
    (hpre : ∀ s ∈ pre, Unbroken s.2) (htail : Breaks tail) :
    ∃ e r' acc, collect ctx l =
        (.error e, l.withCursor r' (l.currentDeleteManifest + pre.length), acc) ∧
      Waiting op r' ∧ LeftBefore op r' tail ∧
      (pre = [] → r.isFinished = false → r'.isFinished = false) := by
  by_cases hf : r.isFinished = true
  · have hidle := hr.idle hf
    rw [upcoming_finished hf] at heq
    obtain ⟨ms₁, ms₂, hms, rfl, hm⟩ := map_eq_breaks heq
    obtain ⟨e, r', acc, hfrom, hwaiting, hleft⟩ := collectFrom_breaks hidle (by rw [← hms])
      (fun m hm => hpre _ (List.mem_map_of_mem hm)) htail hm []
    refine ⟨e, r', acc, ?_, hwaiting, hleft, fun _ hf' => ?_⟩
    · rw [collect_eq hp hreader hidle.readerOf hf, hms, hfrom]
      simp only [List.length_map]
    · rw [hf] at hf'
      cases hf'
  have hf : r.isFinished = false := by simpa using hf
  cases hm₀ : l.deleteManifests[l.currentDeleteManifest]? with
  | none =>
    have hnil : upcoming ctx op r l = [] := by
      unfold upcoming
      rw [List.drop_eq_nil_of_le (List.getElem?_eq_none_iff.1 hm₀)]
    rw [hnil] at heq
    cases pre <;> cases heq
  | some m₀ =>
    obtain ⟨hreading, hcurrent⟩ := hr.standing.reading hf
    obtain ⟨-, scan, hscan, -⟩ := id hreading
    rw [upcoming_reading hf hm₀ (by rw [hscan]; rfl)] at heq
    have hrun := run_collect_reading ctx hp hreader hr.standing hf hm₀ []
    cases pre with
    | nil =>
      -- the rest of the manifest at hand throws
      obtain ⟨hhead, -⟩ := List.cons.inj heq
      obtain ⟨-, hahead⟩ := Prod.mk.inj hhead
      obtain ⟨e, r', acc, hread, hwaiting, hleft, hf'⟩ :=
        readAll_breaks htail hr.standing.readerOf hr.skip_eq ⟨hreading, hcurrent, hahead⟩ []
      rw [hread] at hrun
      exact ⟨e, r', acc, collect_of_run hrun, hwaiting, hleft, fun _ _ => hf'⟩
    | cons s pre =>
      obtain ⟨rfl, hrest⟩ := List.cons.inj heq
      obtain ⟨hfirst, hpre⟩ := List.forall_mem_cons.1 hpre
      obtain ⟨ms₁, ms₂, hms, rfl, hm⟩ := map_eq_breaks hrest
      obtain ⟨r₁, hread, hidle, hlay⟩ := readAll_unbroken ctx l.path l.options hr hf hfirst []
      obtain ⟨e, r', acc, hfrom, hwaiting, hleft⟩ := collectFrom_breaks hidle (hlay _)
        (fun m hm => hpre _ (List.mem_map_of_mem hm)) htail hm
        ([] ++ keptEntries op true (chunksOf (r.ahead op)))
      rw [hread] at hrun
      dsimp only at hrun
      rw [hms, hfrom] at hrun
      refine ⟨e, r', acc, (collect_of_run hrun).trans ?_, hwaiting, hleft, nofun⟩
      rw [List.length_cons, List.length_map, Nat.add_assoc, Nat.add_comm 1]

end IcebergMultiFileList

end DuckIceberg
