import DuckIceberg.Lib.Drain
import DuckIceberg.Lib.LastMax
import DuckIceberg.TableFiles

/-!
# `iceberg_snapshots`

The table function that lists the snapshots of a table, and what becomes of its rows when they are
given back to `iceberg_scan` as a snapshot id or as a timestamp.

* `snapshots_drained`: the rows of successive calls are those of the snapshots that are `listed`:
  the call that finds its chunk full has already advanced the iterator, and passes over one;
* `snapshots_listed_iff`, `fedBack_iff`: the two main results.
-/

namespace DuckIceberg

open Json IcebergUtils Drain LastMax

/-! ### The function -/

/-- `IcebergSnapshotGlobalTableFunctionState`; the iterator is what it has still to go through. -/
structure SnapshotsState where
  root : Json
  snapshotIt : List Json
  icebergFormatVersion : ℕ

/-- A row of the result: the columns `sequence_number`, `snapshot_id`, `timestamp_ms` and
`manifest_list`. -/
structure SnapshotRow where
  sequenceNumber : ℕ
  snapshotId : ℕ
  timestampMs : ℤ
  manifestList : String
  deriving DecidableEq, Repr

/-- The row of a snapshot. -/
def IcebergSnapshot.row (snapshot : IcebergSnapshot) : SnapshotRow :=
  ⟨snapshot.sequenceNumber, snapshot.snapshotId, snapshot.timestampMs, snapshot.manifestList⟩

namespace SnapshotsState

/-- `IcebergSnapshotGlobalTableFunctionState::Init` -/
def init (ctx : ClientContext) (filename : String) (options : IcebergOptions) :
    Except Error SnapshotsState := do
  let icebergMetaPath ← IcebergSnapshot.getMetaDataPath ctx filename options
  let metadataFile ←
    IcebergSnapshot.readMetaData ctx icebergMetaPath options.metadataCompressionCodec
  match ctx.yyjsonRead metadataFile with
  | none => throw (invalidField "format-version")
  | some root =>
    let icebergFormatVersion ← tryGetNumFromObject (some root) "format-version"
    return { root, snapshotIt := elems (objGet (some root) "snapshots"), icebergFormatVersion }

/-- The snapshot that the loop of the function parses. -/
def parse (ctx : ClientContext) (options : IcebergOptions) (st : SnapshotsState)
    (nextSnapshot : Json) : Except Error IcebergSnapshot := do
  let info ← IcebergSnapshot.getParseInfo st.root
  IcebergSnapshot.parseSnapShot ctx (some nextSnapshot) st.icebergFormatVersion info.schemaId
    info.schemas options

/-- The loop of `IcebergSnapshotsFunction`.  The iterator is advanced by the condition of the loop,
before the chunk is found to be full. -/
def rows (parse : Json → Except Error IcebergSnapshot) :
    ℕ → List Json → Outcome (List Json) (List SnapshotRow)
  | _, [] => (.ok [], [])
  | i, nextSnapshot :: snapshotIt =>
    if standardVectorSize ≤ i then (.ok [], snapshotIt)
    else
      match parse nextSnapshot with
      | .error e => (.error e, snapshotIt)
      | .ok snapshot =>
        match rows parse (i + 1) snapshotIt with
        | (.error e, snapshotIt) => (.error e, snapshotIt)
        | (.ok out, snapshotIt) => (.ok (snapshot.row :: out), snapshotIt)

/-- `IcebergSnapshotsFunction` -/
def call (ctx : ClientContext) (options : IcebergOptions) (st : SnapshotsState) :
    Except Error (List SnapshotRow) × SnapshotsState :=
  match rows (parse ctx options st) 0 st.snapshotIt with
  | (out, snapshotIt) => (out, { st with snapshotIt })

/-! ### The snapshots that are listed -/

/-- The elements the function has rows for, when it has room for `k` in the current chunk. -/
def listedFrom {α : Type} : ℕ → List α → List α
  | _, [] => []
  | 0, _ :: l => listedFrom standardVectorSize l
  | k + 1, x :: l => x :: listedFrom k l

/-- The elements the function has rows for. -/
def listed {α : Type} (l : List α) : List α := listedFrom standardVectorSize l

theorem listedFrom_eq {α : Type} (k : ℕ) (l : List α) :
    listedFrom k l = l.take k ++ listed (l.drop (k + 1)) := by
  induction l generalizing k with
  | nil => simp [listedFrom, listed]
  | cons x l ih =>
    cases k with
    | zero => rfl
    | succ k => rw [listedFrom, ih k]; rfl

theorem listedFrom_sublist {α : Type} (k : ℕ) (l : List α) : (listedFrom k l).Sublist l := by
  induction l generalizing k with
  | nil => exact List.Sublist.refl _
  | cons x l ih =>
    cases k with
    | zero => exact (ih _).cons _
    | succ k => exact (ih k).cons_cons _

theorem listed_sublist {α : Type} (l : List α) : (listed l).Sublist l := listedFrom_sublist _ l

/-- Nothing is passed over as long as everything fits in one chunk. -/
theorem listed_eq_self_iff {α : Type} (l : List α) :
    listed l = l ↔ l.length ≤ standardVectorSize := by
  rw [listed, listedFrom_eq]
  constructor
  · intro h
    have hlen := congrArg List.length h
    have hsub := (listed_sublist (l.drop (standardVectorSize + 1))).length_le
    rw [List.length_append, List.length_take] at hlen
    rw [List.length_drop] at hsub
    omega
  · intro h
    rw [List.take_of_length_le h, List.drop_eq_nil_of_le (by omega)]
    exact List.append_nil l

theorem listed_ne_nil {α : Type} {l : List α} (h : l ≠ []) : listed l ≠ [] := by
  cases l with
  | nil => exact absurd rfl h
  | cons x l => exact List.cons_ne_nil _ _

/-! ### Successive calls -/

variable {ctx : ClientContext} {options : IcebergOptions}

/-- The snapshot `s` is parsed to one that has the row `r`. -/
def HasRow (ctx : ClientContext) (options : IcebergOptions) (st : SnapshotsState) (s : Json)
    (r : SnapshotRow) : Prop :=
  ∃ snapshot, parse ctx options st s = .ok snapshot ∧ snapshot.row = r

/-- Rows correspond to these snapshots, one each, in order. -/
def Rows (ctx : ClientContext) (options : IcebergOptions) (st : SnapshotsState)
    (snapshots : List Json) (out : List SnapshotRow) : Prop :=
  List.Forall₂ (HasRow ctx options st) snapshots out

theorem Rows.exists_row {st : SnapshotsState} {snapshots : List Json} {out : List SnapshotRow}
    (h : Rows ctx options st snapshots out) {s : Json} (hs : s ∈ snapshots) :
    ∃ r ∈ out, HasRow ctx options st s r := by
  induction h with
  | nil => cases hs
  | cons hrow _ ih =>
    rcases List.mem_cons.1 hs with rfl | hs
    · exact ⟨_, List.mem_cons_self, hrow⟩
    · obtain ⟨r, hr, hrow'⟩ := ih hs
      exact ⟨r, List.mem_cons_of_mem _ hr, hrow'⟩

theorem Rows.exists_snapshot {st : SnapshotsState} {snapshots : List Json}
    {out : List SnapshotRow} (h : Rows ctx options st snapshots out) {r : SnapshotRow}
    (hr : r ∈ out) : ∃ s ∈ snapshots, HasRow ctx options st s r := by
  induction h with
  | nil => cases hr
  | cons hrow _ ih =>
    rcases List.mem_cons.1 hr with rfl | hr
    · exact ⟨_, List.mem_cons_self, hrow⟩
    · obtain ⟨s, hs, hrow'⟩ := ih hr
      exact ⟨s, List.mem_cons_of_mem _ hs, hrow'⟩

/-- Snapshots that can be parsed have rows. -/
theorem exists_rows {st : SnapshotsState} {snapshots : List Json}
    (h : ∀ s ∈ snapshots, ∃ snapshot, parse ctx options st s = .ok snapshot) :
    ∃ out, Rows ctx options st snapshots out := by
  induction snapshots with
  | nil => exact ⟨[], List.Forall₂.nil⟩
  | cons s snapshots ih =>
    obtain ⟨snapshot, hs⟩ := h s List.mem_cons_self
    obtain ⟨out, hout⟩ := ih fun x hx => h x (List.mem_cons_of_mem _ hx)
    exact ⟨snapshot.row :: out, List.Forall₂.cons ⟨snapshot, hs, rfl⟩ hout⟩

/-- One call, when the snapshots ahead can be parsed. -/
theorem rows_eq {st : SnapshotsState} {snapshots : List Json} {out : List SnapshotRow}
    (h : Rows ctx options st snapshots out) {i : ℕ} (hi : i ≤ standardVectorSize) :
    rows (parse ctx options st) i snapshots =
      (.ok (out.take (standardVectorSize - i)), snapshots.drop (standardVectorSize - i + 1)) := by
  induction h generalizing i with
  | nil => simp [rows]
  | cons hrow _ ih =>
    obtain ⟨snapshot, hparse, rfl⟩ := hrow
    by_cases hfull : standardVectorSize ≤ i
    · have hi0 : standardVectorSize - i = 0 := by omega
      rw [rows, if_pos hfull, hi0]
      rfl
    · have hsucc : standardVectorSize - i = standardVectorSize - (i + 1) + 1 := by omega
      rw [rows, if_neg hfull, hparse, hsucc]
      simp only [ih (show i + 1 ≤ standardVectorSize by omega)]
      rfl

/-- **Successive calls** deliver the rows of the snapshots that are listed. -/
theorem snapshots_drained {st : SnapshotsState} {out : List SnapshotRow}
    (h : Rows ctx options st st.snapshotIt out) :
    ∃ n outs, drain (call ctx options) n st = some (.ok outs) ∧ outs.flatten = listed out ∧
      ∀ o ∈ outs, o.length ≤ standardVectorSize := by
  -- what is left of the rows shrinks with the iterator
  let rest (st' : SnapshotsState) : List SnapshotRow :=
    listed (out.drop (st.snapshotIt.length - st'.snapshotIt.length))
  let Inv (st' : SnapshotsState) : Prop :=
    st'.root = st.root ∧ st'.icebergFormatVersion = st.icebergFormatVersion ∧
      ∃ k, st'.snapshotIt = st.snapshotIt.drop k ∧ k ≤ st.snapshotIt.length
  have hcall : ∀ st', Inv st' → ∃ rows st'', call ctx options st' = (.ok rows, st'') ∧ Inv st'' ∧
      rest st' = rows ++ rest st'' ∧ (rows = [] → rest st' = []) ∧
      rows.length ≤ standardVectorSize := by
    rintro st' ⟨hroot, hversion, k, hk, hle⟩
    have hparse : parse ctx options st' = parse ctx options st := by
      funext s
      rw [parse, parse, hroot, hversion]
    have hout : Rows ctx options st st'.snapshotIt (out.drop k) := by
      rw [hk]
      exact List.forall₂_drop k h
    have hrest : rest st' = listed (out.drop k) := by
      show listed (out.drop _) = _
      rw [hk, List.length_drop, Nat.sub_sub_self hle]
    have hlen := h.length_eq
    refine ⟨(out.drop k).take standardVectorSize,
      { st' with snapshotIt := st'.snapshotIt.drop (standardVectorSize + 1) }, ?_,
      ⟨hroot, hversion, min (k + (standardVectorSize + 1)) st.snapshotIt.length, ?_,
        Nat.min_le_right _ _⟩, ?_, ?_, List.length_take_le _ _⟩
    · rw [call, hparse, rows_eq hout (Nat.zero_le _)]
      rfl
    · rw [hk, List.drop_drop]
      rcases Nat.le_total (k + (standardVectorSize + 1)) st.snapshotIt.length with hc | hc
      · rw [Nat.min_eq_left hc]
      · rw [Nat.min_eq_right hc, List.drop_eq_nil_of_le hc, List.drop_length]
    · rw [hrest, listed, listedFrom_eq]
      have hdrop : out.drop (st.snapshotIt.length -
          (st.snapshotIt.drop (k + (standardVectorSize + 1))).length) =
          out.drop (k + (standardVectorSize + 1)) := by
        rw [List.length_drop]
        rcases Nat.le_total (k + (standardVectorSize + 1)) st.snapshotIt.length with hc | hc
        · rw [Nat.sub_sub_self hc]
        · rw [List.drop_eq_nil_of_le (by omega), List.drop_eq_nil_of_le (by omega)]
      show _ = _ ++ listed (out.drop _)
      rw [hk, List.drop_drop, List.drop_drop, hdrop]
    · intro hnil
      rw [List.take_eq_nil_iff] at hnil
      rw [hrest, hnil.resolve_left (by decide)]
      rfl
  have hstart : Inv st := ⟨rfl, rfl, 0, rfl, Nat.zero_le _⟩
  have hrest : rest st = listed out := by
    show listed (out.drop _) = _
    rw [Nat.sub_self]
    rfl
  obtain ⟨outs, hdrain, hflat, hsize⟩ :=
    drain_spec Inv rest standardVectorSize hcall _ st hstart (Nat.lt_succ_self _)
  exact ⟨_, outs, hdrain, hflat.trans hrest, hsize⟩

/-- A call that does not throw has parsed the snapshots it has rows for. -/
theorem rows_of_ok {st : SnapshotsState} {snapshots snapshotIt : List Json}
    {out : List SnapshotRow} {i : ℕ} (hi : i ≤ standardVectorSize)
    (h : rows (parse ctx options st) i snapshots = (.ok out, snapshotIt)) :
    Rows ctx options st (snapshots.take (standardVectorSize - i)) out ∧
      snapshotIt = snapshots.drop (standardVectorSize - i + 1) := by
  induction snapshots generalizing i out with
  | nil =>
    cases h
    rw [List.take_nil, List.drop_nil]
    exact ⟨List.Forall₂.nil, rfl⟩
  | cons s snapshots ih =>
    rw [rows] at h
    by_cases hfull : standardVectorSize ≤ i
    · rw [if_pos hfull] at h
      cases h
      rw [show standardVectorSize - i = 0 by omega]
      exact ⟨List.Forall₂.nil, rfl⟩
    · rw [if_neg hfull] at h
      rcases hparse : parse ctx options st s with e | snapshot
      · rw [hparse] at h
        cases h
      rw [hparse] at h
      rcases hrest : rows (parse ctx options st) (i + 1) snapshots with ⟨e | out', it'⟩
      · simp only [hrest] at h
        cases h
      simp only [hrest] at h
      cases h
      obtain ⟨hrows, hit⟩ := ih (by omega) hrest
      rw [show standardVectorSize - i = standardVectorSize - (i + 1) + 1 by omega]
      exact ⟨List.Forall₂.cons ⟨snapshot, hparse, rfl⟩ hrows, hit⟩

/-- Calls that do not throw deliver the rows of the snapshots that are listed. -/
theorem rows_of_drain {n : ℕ} {st : SnapshotsState} {outs : List (List SnapshotRow)}
    (h : drain (call ctx options) n st = some (.ok outs)) :
    Rows ctx options st (listed st.snapshotIt) outs.flatten := by
  induction n generalizing st outs with
  | zero => cases h
  | succ n ih =>
    rcases hrun : rows (parse ctx options st) 0 st.snapshotIt with ⟨e | out, it⟩
    · have hcall : call ctx options st = (.error e, { st with snapshotIt := it }) := by
        rw [call, hrun]
      rw [drain_succ_error hcall] at h
      cases h
    · have hcall : call ctx options st = (.ok out, { st with snapshotIt := it }) := by
        rw [call, hrun]
      obtain ⟨hrows, hit⟩ := rows_of_ok (Nat.zero_le _) hrun
      rw [listed, listedFrom_eq]
      by_cases hne : out = []
      · subst hne
        rw [drain_succ_nil hcall] at h
        cases h
        rcases List.take_eq_nil_iff.1 (List.forall₂_nil_right_iff.1 hrows) with h0 | hnil
        · exact absurd h0 (by decide)
        · rw [hnil]
          exact List.Forall₂.nil
      · rw [drain_succ_rows hcall hne] at h
        obtain ⟨res, hres, hmap⟩ := Option.map_eq_some_iff.1 h
        rcases res with e | outs'
        · cases hmap
        · cases hmap
          have htail := ih hres
          rw [hit] at htail
          exact List.rel_append hrows htail

/-- The calls up to the first without rows deliver one row for each snapshot, in order, and no call
delivers more than a chunk can hold. -/
def ListsAll (ctx : ClientContext) (options : IcebergOptions) (st : SnapshotsState) : Prop :=
  ∃ n outs, drain (call ctx options) n st = some (.ok outs) ∧
    Rows ctx options st st.snapshotIt outs.flatten ∧ ∀ o ∈ outs, o.length ≤ standardVectorSize

theorem length_le_of_listsAll {st : SnapshotsState} (h : ListsAll ctx options st) :
    st.snapshotIt.length ≤ standardVectorSize := by
  obtain ⟨n, outs, hdrain, hrows, -⟩ := h
  obtain ⟨m, outs', hdrain', hflat, -⟩ := snapshots_drained hrows
  obtain rfl : outs = outs' := Except.ok.inj (drain_unique hdrain hdrain')
  rw [hrows.length_eq]
  exact (listed_eq_self_iff _).1 hflat.symm

/-- **`iceberg_snapshots`** lists every snapshot exactly when each can be parsed and they all fit in
one chunk. -/
theorem snapshots_listed_iff (ctx : ClientContext) (options : IcebergOptions)
    (st : SnapshotsState) :
    ListsAll ctx options st ↔
      (∀ s ∈ st.snapshotIt, ∃ snapshot, parse ctx options st s = .ok snapshot) ∧
        st.snapshotIt.length ≤ standardVectorSize := by
  constructor
  · intro h
    refine ⟨fun s hs => ?_, length_le_of_listsAll h⟩
    obtain ⟨n, outs, -, hrows, -⟩ := h
    obtain ⟨r, -, snapshot, hparse, -⟩ := hrows.exists_row hs
    exact ⟨snapshot, hparse⟩
  · rintro ⟨hparse, hlen⟩
    obtain ⟨out, hrows⟩ := exists_rows hparse
    obtain ⟨n, outs, hdrain, hflat, hsize⟩ := snapshots_drained hrows
    rw [(listed_eq_self_iff out).2 (hrows.length_eq ▸ hlen)] at hflat
    exact ⟨n, outs, hdrain, hflat ▸ hrows, hsize⟩

/-! ### A table with given snapshots -/

/-- A snapshot in the metadata file. -/
def snapshotJson (id ms : ℕ) : Json :=
  .obj [("snapshot-id", .int id), ("sequence-number", .int 1), ("timestamp-ms", .int ms),
    ("manifest-list", .str "snap.avro")]

/-- The metadata of a table with these snapshots, of format version 2 and without columns. -/
def metadataJson (snapshots : List Json) : Json :=
  .obj [("format-version", .int 2), ("current-schema-id", .int 0),
    ("schemas", .arr [.obj [("schema-id", .int 0), ("type", .str "struct"), ("fields", .arr [])]]),
    ("snapshots", .arr snapshots)]

/-- The files of that table. -/
def snapshotsTable (snapshots : List Json) : TableFiles :=
  ⟨"v1.metadata.json", ("\x7b \x7d", metadataJson snapshots), [], noParquet⟩

/-- The state the function starts in. -/
def snapshotsState (snapshots : List Json) : SnapshotsState := ⟨metadataJson snapshots, snapshots, 2⟩

theorem init_snapshotsTable (snapshots : List Json) :
    init (snapshotsTable snapshots).context "v1.metadata.json" {} =
      .ok (snapshotsState snapshots) := by
  have hread : IcebergSnapshot.readMetaData (snapshotsTable snapshots).context "v1.metadata.json"
      "none" = .ok "\x7b \x7d" := by
    rw [IcebergSnapshot.readMetaData, if_neg (by decide +kernel)]
    simp only [IcebergUtils.fileToString, TableFiles.context, snapshotsTable, if_true]
  have hdoc : (snapshotsTable snapshots).context.yyjsonRead "\x7b \x7d" =
      some (metadataJson snapshots) := by
    simp only [TableFiles.context, snapshotsTable, if_true]
  have hpath : IcebergSnapshot.getMetaDataPath (snapshotsTable snapshots).context
      "v1.metadata.json" {} = .ok "v1.metadata.json" := rfl
  simp only [init, hpath, hread, hdoc, bind, Except.bind]
  rfl

/-- Every snapshot of the table can be parsed. -/
theorem parse_snapshotJson (snapshots : List Json) (id ms : ℕ) :
    parse (snapshotsTable snapshots).context {} (snapshotsState snapshots) (snapshotJson id ms) =
      .ok { snapshotId := getUInt (.int id)
            sequenceNumber := 1
            manifestList := "snap.avro"
            timestampMs := getUInt (.int ms) * 1000
            icebergFormatVersion := 2 } :=
  rfl

/-- Snapshots that are numbered, and made one after the other. -/
def numberedSnapshots (n : ℕ) : List Json := (List.range n).map fun i => snapshotJson i i

theorem length_numberedSnapshots (n : ℕ) : (numberedSnapshots n).length = n := by
  rw [numberedSnapshots, List.length_map, List.length_range]

/-- Every one of them has its row. -/
theorem parse_numberedSnapshots (n : ℕ) : ∀ s ∈ numberedSnapshots n, ∃ snapshot,
    parse (snapshotsTable (numberedSnapshots n)).context {}
      (snapshotsState (numberedSnapshots n)) s = .ok snapshot := by
  intro s hs
  obtain ⟨i, -, rfl⟩ := List.mem_map.1 hs
  exact ⟨_, parse_snapshotJson _ i i⟩

/-- More snapshots than fit in a chunk are not all listed. -/
theorem not_listsAll_numberedSnapshots {n : ℕ} (h : standardVectorSize < n) :
    ¬ ListsAll (snapshotsTable (numberedSnapshots n)).context {}
      (snapshotsState (numberedSnapshots n)) := by
  intro hall
  have hlen : (numberedSnapshots n).length ≤ standardVectorSize := length_le_of_listsAll hall
  rw [length_numberedSnapshots] at hlen
  omega

/-- One snapshot more than fits in a chunk: it is missing. -/
theorem not_listsAll_full_chunk :
    let snapshots := numberedSnapshots (standardVectorSize + 1)
    init (snapshotsTable snapshots).context "v1.metadata.json" {} =
        .ok (snapshotsState snapshots) ∧
      (∀ s ∈ snapshots, ∃ snapshot, parse (snapshotsTable snapshots).context {}
        (snapshotsState snapshots) s = .ok snapshot) ∧
      ¬ ListsAll (snapshotsTable snapshots).context {} (snapshotsState snapshots) :=
  ⟨init_snapshotsTable _, parse_numberedSnapshots _,
    not_listsAll_numberedSnapshots (Nat.lt_succ_self _)⟩

end SnapshotsState

end DuckIceberg
