import DuckIceberg.IcebergTable
import DuckIceberg.Lib.Drain

/-!
# `iceberg_metadata`

The table function that lists the entries of all manifests of a loaded table.  Its state is a pair
of indices, which a call leaves where its chunk is full.

* `call_spec`: a call takes the rows of the next pairs of a manifest and an entry, as many as fit;
* `metadata_lists_all`: so successive calls list every pair once, in order, each in a row of eight
  columns that say what the manifest and the entry say (`RowOf`).
-/

namespace DuckIceberg

open Drain

/-- `IcebergManifestContentTypeToString` -/
def IcebergManifestContentType.toText : IcebergManifestContentType → Except Error String
  | .data => .ok "DATA"
  | .delete => .ok "DELETE"
  | .other _ => .error ⟨.io, "Invalid Manifest Content Type"⟩

/-- `IcebergManifestEntryStatusTypeToString` -/
def IcebergManifestEntryStatusType.toText : IcebergManifestEntryStatusType → Except Error String
  | .existing => .ok "EXISTING"
  | .added => .ok "ADDED"
  | .deleted => .ok "DELETED"
  | .other _ => .error ⟨.io, "Invalid matifest entry type"⟩

/-- `IcebergManifestEntryContentTypeToString` -/
def IcebergManifestEntryContentType.toText : IcebergManifestEntryContentType → Except Error String
  | .data => .ok "EXISTING"
  | .positionDeletes => .ok "POSITION_DELETES"
  | .equalityDeletes => .ok "EQUALITY_DELETES"
  | .other _ => .error ⟨.io, "Invalid Manifest Entry Content Type"⟩

/-- A row of the result. -/
structure MetadataRow where
  manifestPath : String
  manifestSequenceNumber : ℤ
  manifestContent : String
  status : String
  content : String
  filePath : String
  fileFormat : String
  recordCount : ℤ
  deriving DecidableEq, Repr

/-- The row of an entry of a manifest. -/
def metadataRow (manifest : IcebergManifest) (entry : IcebergManifestEntry) :
    Except Error MetadataRow := do
  let manifestContent ← manifest.content.toText
  let status ← entry.status.toText
  let content ← entry.content.toText
  return ⟨manifest.manifestPath, manifest.sequenceNumber, manifestContent, status, content,
    entry.filePath, entry.fileFormat, entry.recordCount⟩

/-- `IcebergMetaDataGlobalTableFunctionState` -/
structure MetadataState where
  currentManifestIdx : ℕ := 0
  currentManifestEntryIdx : ℕ := 0
  deriving DecidableEq, Repr

namespace MetadataState

/-! ### The function -/

/-- One round of the inner loop.  `true` says that the chunk is full. -/
def entryRound (entry : IcebergTableEntry) (s : MetadataState × List MetadataRow) :
    Loop.Step (MetadataState × List MetadataRow)
      (Except Error Bool × MetadataState × List MetadataRow) :=
  match entry.manifestEntries[s.1.currentManifestEntryIdx]? with
  | none => .done (.ok false, s.1, s.2)
  | some manifestEntry =>
    if standardVectorSize ≤ s.2.length then .done (.ok true, s.1, s.2)
    else
      match metadataRow entry.manifest manifestEntry with
      | .error e => .done (.error e, s.1, s.2)
      | .ok row =>
        .next ({ s.1 with currentManifestEntryIdx := s.1.currentManifestEntryIdx + 1 },
          s.2 ++ [row])

/-- The inner loop. -/
def entryLoop (entry : IcebergTableEntry) (s : MetadataState × List MetadataRow) :
    Except Error Bool × MetadataState × List MetadataRow :=
  (Loop.run (entryRound entry)
    (entry.manifestEntries.length - s.1.currentManifestEntryIdx + 1) s).getD
    (.error ⟨.diverged, "IcebergMetaDataFunction"⟩, s.1, s.2)

/-- One round of the outer loop. -/
def manifestRound (manifests : List IcebergTableEntry) (s : MetadataState × List MetadataRow) :
    Loop.Step (MetadataState × List MetadataRow)
      (Except Error (List MetadataRow) × MetadataState) :=
  match manifests[s.1.currentManifestIdx]? with
  | none => .done (.ok s.2, s.1)
  | some entry =>
    match entryLoop entry s with
    | (.error e, st, _) => .done (.error e, st)
    | (.ok true, st, out) => .done (.ok out, st)
    | (.ok false, st, out) => .next (⟨st.currentManifestIdx + 1, 0⟩, out)

/-- `IcebergMetaDataFunction` -/
def call (t : IcebergTable) (st : MetadataState) :
    Except Error (List MetadataRow) × MetadataState :=
  (Loop.run (manifestRound t.entries) (t.entries.length - st.currentManifestIdx + 1) (st, [])).getD
    (.error ⟨.diverged, "IcebergMetaDataFunction"⟩, st)

/-! ### The pairs that are listed -/

/-- The pairs of a manifest and an entry of it. -/
def pairs (entries : List IcebergTableEntry) : List (IcebergManifest × IcebergManifestEntry) :=
  entries.flatMap fun entry => entry.manifestEntries.map fun e => (entry.manifest, e)

/-- The pairs of the current manifest that are left. -/
def left (entry : IcebergTableEntry) (st : MetadataState) :
    List (IcebergManifest × IcebergManifestEntry) :=
  (entry.manifestEntries.drop st.currentManifestEntryIdx).map fun e => (entry.manifest, e)

/-- The pairs that are left. -/
def rest (entries : List IcebergTableEntry) (st : MetadataState) :
    List (IcebergManifest × IcebergManifestEntry) :=
  match entries[st.currentManifestIdx]? with
  | none => []
  | some entry => left entry st ++ pairs (entries.drop (st.currentManifestIdx + 1))

/-- The enumerations of the pair have values that are enumerators. -/
def Valid (p : IcebergManifest × IcebergManifestEntry) : Prop :=
  (∀ v, p.1.content ≠ .other v) ∧ (∀ v, p.2.status ≠ .other v) ∧ ∀ v, p.2.content ≠ .other v

/-- The row of a pair, if its enumerations are valid. -/
def row (p : IcebergManifest × IcebergManifestEntry) : MetadataRow :=
  ((metadataRow p.1 p.2).toOption).getD ⟨"", 0, "", "", "", "", "", 0⟩

theorem metadataRow_eq {p : IcebergManifest × IcebergManifestEntry} (h : Valid p) :
    metadataRow p.1 p.2 = .ok (row p) := by
  obtain ⟨manifest, entry⟩ := p
  obtain ⟨h1, h2, h3⟩ := h
  rcases manifest with ⟨path, seq, _ | _ | v⟩
  all_goals first | exact absurd rfl (h1 v) | skip
  all_goals
    rcases entry with ⟨_ | _ | _ | v, content, file, format, count⟩
    all_goals first | exact absurd rfl (h2 v) | skip
    all_goals
      rcases content with _ | _ | _ | v
      all_goals first | exact absurd rfl (h3 v) | rfl

/-- What the eight columns of the row of a pair say: the enumerations in words, the rest as it is. -/
structure RowOf (p : IcebergManifest × IcebergManifestEntry) (r : MetadataRow) : Prop where
  manifestPath : r.manifestPath = p.1.manifestPath
  manifestSequenceNumber : r.manifestSequenceNumber = p.1.sequenceNumber
  manifestContent : p.1.content.toText = .ok r.manifestContent
  status : p.2.status.toText = .ok r.status
  content : p.2.content.toText = .ok r.content
  filePath : r.filePath = p.2.filePath
  fileFormat : r.fileFormat = p.2.fileFormat
  recordCount : r.recordCount = p.2.recordCount

/-- A pair has one row. -/
theorem metadataRow_eq_ok {p : IcebergManifest × IcebergManifestEntry} {r : MetadataRow} :
    metadataRow p.1 p.2 = .ok r ↔ RowOf p r := by
  constructor
  · intro h
    obtain ⟨manifestContent, hmanifest, h⟩ := bind_eq_ok.1 h
    obtain ⟨status, hstatus, h⟩ := bind_eq_ok.1 h
    obtain ⟨content, hcontent, h⟩ := bind_eq_ok.1 h
    cases h
    exact ⟨rfl, rfl, hmanifest, hstatus, hcontent, rfl, rfl, rfl⟩
  · intro h
    unfold metadataRow
    rw [h.manifestContent, h.status, h.content, ← h.manifestPath, ← h.manifestSequenceNumber,
      ← h.filePath, ← h.fileFormat, ← h.recordCount]
    rfl

/-- The rows of the first of the pairs that were left have been put out. -/
def Emits (before after : List (IcebergManifest × IcebergManifestEntry))
    (out out' : List MetadataRow) : Prop :=
  ∃ taken, before = taken ++ after ∧ out' = out ++ taken.map row

theorem Emits.refl (before : List (IcebergManifest × IcebergManifestEntry))
    (out : List MetadataRow) : Emits before before out out :=
  ⟨[], rfl, (List.append_nil out).symm⟩

theorem Emits.append {before after : List (IcebergManifest × IcebergManifestEntry)}
    {out out' : List MetadataRow} (h : Emits before after out out')
    (more : List (IcebergManifest × IcebergManifestEntry)) :
    Emits (before ++ more) (after ++ more) out out' := by
  obtain ⟨taken, rfl, rfl⟩ := h
  exact ⟨taken, List.append_assoc .., rfl⟩

theorem Emits.trans {l₁ l₂ l₃ : List (IcebergManifest × IcebergManifestEntry)}
    {o₁ o₂ o₃ : List MetadataRow} (h : Emits l₁ l₂ o₁ o₂) (h' : Emits l₂ l₃ o₂ o₃) :
    Emits l₁ l₃ o₁ o₃ := by
  obtain ⟨taken, rfl, rfl⟩ := h
  obtain ⟨taken', rfl, rfl⟩ := h'
  exact ⟨taken ++ taken', by rw [List.append_assoc],
    by rw [List.map_append, List.append_assoc]⟩

theorem left_cons {entry : IcebergTableEntry} {st : MetadataState} {e : IcebergManifestEntry}
    (h : entry.manifestEntries[st.currentManifestEntryIdx]? = some e) :
    left entry st = (entry.manifest, e) ::
      left entry { st with currentManifestEntryIdx := st.currentManifestEntryIdx + 1 } := by
  obtain ⟨hlt, hget⟩ := List.getElem?_eq_some_iff.1 h
  rw [left, List.drop_eq_getElem_cons hlt, hget]
  rfl

theorem rest_eq {entries : List IcebergTableEntry} {st st' : MetadataState}
    {entry : IcebergTableEntry} (h : entries[st.currentManifestIdx]? = some entry)
    (hidx : st'.currentManifestIdx = st.currentManifestIdx) :
    rest entries st' = left entry st' ++ pairs (entries.drop (st.currentManifestIdx + 1)) := by
  rw [rest, hidx, h]

/-- At the head of a manifest, all pairs of it and of the manifests after it are left. -/
theorem rest_head (entries : List IcebergTableEntry) (k : ℕ) :
    rest entries ⟨k, 0⟩ = pairs (entries.drop k) := by
  rw [rest]
  cases hget : entries[k]? with
  | none =>
    rw [List.drop_eq_nil_of_le (List.getElem?_eq_none_iff.1 hget)]
    rfl
  | some next =>
    obtain ⟨hlt, hget'⟩ := List.getElem?_eq_some_iff.1 hget
    rw [List.drop_eq_getElem_cons hlt, hget']
    rfl

/-- The inner loop emits the pairs of its manifest, until there are no more or the chunk is full. -/
theorem entryLoop_spec (entry : IcebergTableEntry) (st : MetadataState) (out : List MetadataRow)
    (hvalid : ∀ p ∈ left entry st, Valid p) (hout : out.length ≤ standardVectorSize) :
    ∃ full st' out', entryLoop entry (st, out) = (.ok full, st', out') ∧
      st'.currentManifestIdx = st.currentManifestIdx ∧ out'.length ≤ standardVectorSize ∧
      Emits (left entry st) (left entry st') out out' ∧
      (full = true → out'.length = standardVectorSize) ∧ (full = false → left entry st' = []) := by
  have hrun := @Loop.run_spec _ _ (entryRound entry)
    (fun s : MetadataState × List MetadataRow =>
      (∀ p ∈ left entry s.1, Valid p) ∧ s.2.length ≤ standardVectorSize)
    (fun s => entry.manifestEntries.length - s.1.currentManifestEntryIdx)
    (fun s a => ∃ full st' out', a = (.ok full, st', out') ∧
      st'.currentManifestIdx = s.1.currentManifestIdx ∧ out'.length ≤ standardVectorSize ∧
      Emits (left entry s.1) (left entry st') s.2 out' ∧
      (full = true → out'.length = standardVectorSize) ∧ (full = false → left entry st' = []))
    ?_ ?_
    (entry.manifestEntries.length - st.currentManifestEntryIdx + 1) (st, out) ⟨hvalid, hout⟩
    (Nat.lt_succ_self _)
  · obtain ⟨a, ha, full, st', out', rfl, hspec⟩ := hrun
    exact ⟨full, st', out', by rw [entryLoop, ha]; rfl, hspec⟩
  · -- the last round: the entries are used up, or the chunk is full
    rintro ⟨st, out⟩ a ⟨hvalid, hout⟩ hbody
    unfold entryRound at hbody
    split at hbody
    · rename_i hnone
      cases hbody
      refine ⟨false, st, out, rfl, rfl, hout, Emits.refl _ _, nofun, fun _ => ?_⟩
      rw [left, List.drop_eq_nil_of_le (List.getElem?_eq_none_iff.1 hnone)]
      rfl
    · split_ifs at hbody with hfull
      · cases hbody
        exact ⟨true, st, out, rfl, rfl, hout, Emits.refl _ _,
          fun _ => Nat.le_antisymm hout hfull, nofun⟩
      · rename_i e hsome
        have hv := hvalid (entry.manifest, e) (by rw [left_cons hsome]; exact List.mem_cons_self)
        rw [metadataRow_eq hv] at hbody
        cases hbody
  · -- a round that puts out a row, whose pair is the first of those that are left
    rintro ⟨st, out⟩ ⟨st', out'⟩ ⟨hvalid, hout⟩ hbody
    unfold entryRound at hbody
    split at hbody
    · cases hbody
    · split_ifs at hbody with hfull
      rename_i e hsome
      obtain ⟨hlt, -⟩ := List.getElem?_eq_some_iff.1 hsome
      have hleft := left_cons hsome
      have hv := hvalid (entry.manifest, e) (by rw [hleft]; exact List.mem_cons_self)
      rw [metadataRow_eq hv] at hbody
      cases hbody
      dsimp only at hlt hfull hleft ⊢
      refine ⟨⟨fun p hp => hvalid p (by rw [hleft]; exact List.mem_cons_of_mem _ hp), ?_⟩, ?_, ?_⟩
      · rw [List.length_append, List.length_singleton]
        omega
      · omega
      · rintro a ⟨full, st', out', rfl, hidx, hle, hemits, hend⟩
        refine ⟨full, st', out', rfl, hidx, hle, Emits.trans ?_ hemits, hend⟩
        exact ⟨[(entry.manifest, e)], hleft, rfl⟩

/-- **A call** takes the rows of the next pairs, and none only when there are no more. -/
theorem call_spec (t : IcebergTable) (st : MetadataState)
    (hvalid : ∀ p ∈ rest t.entries st, Valid p) :
    ∃ out st', call t st = (.ok out, st') ∧ out.length ≤ standardVectorSize ∧
      Emits (rest t.entries st) (rest t.entries st') [] out ∧
      (out.length = standardVectorSize ∨ rest t.entries st' = []) := by
  have hrun := @Loop.run_spec _ _ (manifestRound t.entries)
    (fun s : MetadataState × List MetadataRow =>
      (∀ p ∈ rest t.entries s.1, Valid p) ∧ s.2.length ≤ standardVectorSize)
    (fun s => t.entries.length - s.1.currentManifestIdx)
    (fun s a => ∃ out st', a = (.ok out, st') ∧ out.length ≤ standardVectorSize ∧
      Emits (rest t.entries s.1) (rest t.entries st') s.2 out ∧
      (out.length = standardVectorSize ∨ rest t.entries st' = []))
    ?_ ?_
    (t.entries.length - st.currentManifestIdx + 1) (st, []) ⟨hvalid, Nat.zero_le _⟩
    (Nat.lt_succ_self _)
  · obtain ⟨a, ha, out, st', rfl, hspec⟩ := hrun
    exact ⟨out, st', by rw [call, ha]; rfl, hspec⟩
  · -- the last round: there is no manifest left, or the chunk was filled from this one
    rintro ⟨st, out⟩ a ⟨hvalid, hout⟩ hbody
    unfold manifestRound at hbody
    split at hbody
    · rename_i hnone
      cases hbody
      exact ⟨out, st, rfl, hout, Emits.refl _ _, Or.inr (by rw [rest, hnone])⟩
    · rename_i entry hsome
      have hrest := rest_eq hsome rfl
      obtain ⟨full, st', out', hloop, hidx, hle, hemits, hfull, -⟩ := entryLoop_spec entry st out
        (fun p hp => hvalid p (by rw [hrest]; exact List.mem_append_left _ hp)) hout
      rw [hloop] at hbody
      cases full with
      | false => cases hbody
      | true =>
        cases hbody
        refine ⟨out', st', rfl, hle, ?_, Or.inl (hfull rfl)⟩
        rw [hrest, rest_eq hsome hidx]
        exact hemits.append _
  · -- a manifest that is used up: the next round begins with the one after it
    rintro ⟨st, out⟩ s' ⟨hvalid, hout⟩ hbody
    unfold manifestRound at hbody
    split at hbody
    · cases hbody
    · rename_i entry hsome
      obtain ⟨hlt, -⟩ := List.getElem?_eq_some_iff.1 hsome
      have hrest := rest_eq hsome rfl
      obtain ⟨full, st', out', hloop, hidx, hle, hemits, -, hend⟩ := entryLoop_spec entry st out
        (fun p hp => hvalid p (by rw [hrest]; exact List.mem_append_left _ hp)) hout
      rw [hloop] at hbody
      cases full with
      | true => cases hbody
      | false =>
        cases hbody
        -- the pairs of the manifests after this one, as the next round sees them
        have hnext := rest_head t.entries (st'.currentManifestIdx + 1)
        rw [hidx] at hnext ⊢
        dsimp only at hlt hnext ⊢
        have hstep : Emits (rest t.entries st) (rest t.entries ⟨st.currentManifestIdx + 1, 0⟩) out
            out' := by
          have happend := hemits.append (pairs (t.entries.drop (st.currentManifestIdx + 1)))
          rw [hend rfl, List.nil_append] at happend
          rw [hnext, hrest]
          exact happend
        refine ⟨⟨fun p hp => hvalid p ?_, hle⟩, by omega, ?_⟩
        · rw [hnext] at hp
          rw [hrest]
          exact List.mem_append_right _ hp
        · rintro a ⟨out'', st'', rfl, hle', hemits', hend'⟩
          exact ⟨out'', st'', rfl, hle', hstep.trans hemits', hend'⟩

/-- **`iceberg_metadata`** lists every entry of every manifest once, in order: the calls up to the first
without rows deliver the rows of all pairs, each with what its manifest and its entry say, and no call
more than a chunk can hold. -/
theorem metadata_lists_all (t : IcebergTable) (hvalid : ∀ p ∈ pairs t.entries, Valid p) :
    ∃ n outs, drain (call t) n {} = some (.ok outs) ∧
      outs.flatten.map Except.ok = (pairs t.entries).map (fun p => metadataRow p.1 p.2) ∧
      List.Forall₂ RowOf (pairs t.entries) outs.flatten ∧
      ∀ out ∈ outs, out.length ≤ standardVectorSize := by
  have hstart : rest t.entries {} = pairs t.entries := rest_head t.entries 0
  have hcall : ∀ st, (∀ p ∈ rest t.entries st, Valid p) → ∃ out st', call t st = (.ok out, st') ∧
      (∀ p ∈ rest t.entries st', Valid p) ∧
      (rest t.entries st).map row = out ++ (rest t.entries st').map row ∧
      (out = [] → (rest t.entries st).map row = []) ∧ out.length ≤ standardVectorSize := by
    intro st hst
    obtain ⟨out, st', hcall, hle, ⟨taken, htaken, hout⟩, hend⟩ := call_spec t st hst
    rw [List.nil_append] at hout
    refine ⟨out, st', hcall, fun p hp => hst p ?_, ?_, fun hnil => ?_, hle⟩
    · rw [htaken]
      exact List.mem_append_right _ hp
    · rw [htaken, List.map_append, hout]
    · rcases hend with hfull | hrest
      · rw [hnil] at hfull
        exact absurd hfull (by decide)
      · rw [hrest, List.append_nil] at htaken
        rw [htaken, ← hout, hnil]
  obtain ⟨outs, hdrain, hflat, hsize⟩ := drain_spec _ (fun st => (rest t.entries st).map row) _
    hcall _ {} (by rw [hstart]; exact hvalid) (Nat.lt_succ_self _)
  rw [hstart] at hflat
  refine ⟨_, outs, hdrain, ?_, ?_, hsize⟩
  · rw [hflat, List.map_map]
    exact List.map_congr_left fun p hp => (metadataRow_eq (hvalid p hp)).symm
  · rw [hflat, List.forall₂_map_right_iff, List.forall₂_same]
    exact fun p hp => metadataRow_eq_ok.1 (metadataRow_eq (hvalid p hp))

/-- A table with a manifest without entries and one with two. -/
theorem metadata_lists_all_two :
    let t : IcebergTable := ⟨"t", {}, [⟨⟨"a.avro", 1, .data⟩, []⟩,
      ⟨⟨"b.avro", 2, .data⟩, [⟨.added, .data, "a.parquet", "parquet", 3⟩,
        ⟨.deleted, .data, "b.parquet", "parquet", 4⟩]⟩]⟩
    ∃ n outs, drain (call t) n {} = some (.ok outs) ∧
      outs.flatten.map Except.ok = (pairs t.entries).map (fun p => metadataRow p.1 p.2) ∧
      List.Forall₂ RowOf (pairs t.entries) outs.flatten ∧
      ∀ out ∈ outs, out.length ≤ standardVectorSize := by
  intro t
  refine metadata_lists_all t fun p hp => ?_
  simp only [t, pairs, List.flatMap_cons, List.flatMap_nil, List.map_cons, List.map_nil,
    List.nil_append, List.append_nil, List.mem_cons, List.not_mem_nil, or_false] at hp
  rcases hp with rfl | rfl
  all_goals refine ⟨fun v h => ?_, fun v h => ?_, fun v h => ?_⟩ <;> cases h

end MetadataState

end DuckIceberg
