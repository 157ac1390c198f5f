import DuckIceberg.SnapshotsFunction

/-!
# Selecting what `iceberg_snapshots` lists

The three loops that select a snapshot, as searches in the list of snapshots: the latest and the
latest up to a timestamp are the last greatest element, a snapshot id is found where it occurs.
Together with the rows of `iceberg_snapshots` they say when a row that is listed selects the
snapshot it was made from (`fedBack_iff`).
-/

namespace DuckIceberg

open Json IcebergUtils Drain LastMax

/-- The number in a field, and 0 when there is none. -/
def num (field : String) (s : Json) : ℕ := ((objGet (some s) field).map getUInt).getD 0

theorem num_of_ok {field : String} {s : Json} {n : ℕ}
    (h : tryGetNumFromObject (some s) field = .ok n) : num field s = n := by
  unfold tryGetNumFromObject at h
  unfold num
  split at h <;> simp_all

namespace IcebergSnapshot

/-! ### The loops -/

/-- The field is a number. -/
def HasNum (field : String) (s : Json) : Prop := ∃ n, tryGetNumFromObject (some s) field = .ok n

theorem HasNum.eq {field : String} {s : Json} (h : HasNum field s) :
    tryGetNumFromObject (some s) field = .ok (num field s) := by
  obtain ⟨n, hn⟩ := h
  rw [num_of_ok hn, hn]

theorem findLatest_eq {l : List Json} (h : ∀ s ∈ l, HasNum "timestamp-ms" s) (m : ℕ)
    (best : Option Json) :
    findLatest l m best = .ok (lastMaxFrom (num "timestamp-ms") l m best) := by
  induction l generalizing m best with
  | nil => rfl
  | cons s l ih =>
    have hs := (h s List.mem_cons_self).eq
    have hl : ∀ x ∈ l, HasNum "timestamp-ms" x := fun x hx => h x (List.mem_cons_of_mem _ hx)
    rw [findLatest, hs, lastMaxFrom]
    show (if m ≤ num "timestamp-ms" s then _ else _) = _
    split_ifs
    · exact ih hl _ _
    · exact ih hl _ _

theorem findByTimestamp_eq {l : List Json} (h : ∀ s ∈ l, HasNum "timestamp-ms" s) (t m : ℕ)
    (best : Option Json) :
    findByTimestamp t l m best =
      .ok (lastMaxFrom (num "timestamp-ms") (l.filter (num "timestamp-ms" · ≤ t)) m best) := by
  induction l generalizing m best with
  | nil => rfl
  | cons s l ih =>
    have hs := (h s List.mem_cons_self).eq
    have hl : ∀ x ∈ l, HasNum "timestamp-ms" x := fun x hx => h x (List.mem_cons_of_mem _ hx)
    rw [findByTimestamp, hs]
    show (if num "timestamp-ms" s ≤ t ∧ m ≤ num "timestamp-ms" s then _ else _) = _
    by_cases hle : num "timestamp-ms" s ≤ t
    · rw [List.filter_cons_of_pos (by simpa using hle), lastMaxFrom]
      by_cases hm : m ≤ num "timestamp-ms" s
      · rw [if_pos ⟨hle, hm⟩, if_pos hm, ih hl]
      · rw [if_neg fun hc => hm hc.2, if_neg hm, ih hl]
    · rw [List.filter_cons_of_neg (by simpa using hle), if_neg fun hc => hle hc.1, ih hl]

theorem findById_eq {l : List Json} (h : ∀ s ∈ l, HasNum "snapshot-id" s)
    (hnodup : (l.map (num "snapshot-id")).Nodup) {s : Json} (hs : s ∈ l) :
    findById (num "snapshot-id" s) l = .ok (some s) := by
  induction l with
  | nil => cases hs
  | cons x l ih =>
    have hx := (h x List.mem_cons_self).eq
    rw [List.map_cons, List.nodup_cons] at hnodup
    rw [findById, hx]
    show (if num "snapshot-id" x = num "snapshot-id" s then _ else _) = _
    rcases List.mem_cons.1 hs with rfl | hs
    · rw [if_pos rfl]
      rfl
    · have hne : num "snapshot-id" x ≠ num "snapshot-id" s := fun heq =>
        hnodup.1 (heq ▸ List.mem_map_of_mem hs)
      rw [if_neg hne]
      exact ih (fun y hy => h y (List.mem_cons_of_mem _ hy)) hnodup.2 hs

end IcebergSnapshot

namespace SnapshotsState

open IcebergSnapshot

variable {ctx : ClientContext} {filename path : String} {options : IcebergOptions}
  {st : SnapshotsState}

/-! ### The functions that select -/

/-- The listing and the selection read the same document. -/
theorem init_spec (h : init ctx filename options = .ok st)
    (hpath : getMetaDataPath ctx filename options = .ok path) :
    getFileParseInfo ctx path options.metadataCompressionCodec = getParseInfo st.root ∧
      st.snapshotIt = elems (objGet (some st.root) "snapshots") ∧
      tryGetNumFromObject (some st.root) "format-version" = .ok st.icebergFormatVersion := by
  obtain ⟨path', hpath', h⟩ := bind_eq_ok.1 h
  obtain ⟨text, hread, h⟩ := bind_eq_ok.1 h
  have heq : path = path' := Except.ok.inj (hpath.symm.trans hpath')
  rw [← heq] at hread
  rcases hdoc : ctx.yyjsonRead text with _ | root
  · rw [hdoc] at h
    cases h
  rw [hdoc] at h
  obtain ⟨version, hversion, h⟩ := bind_eq_ok.1 h
  cases h
  refine ⟨?_, rfl, hversion⟩
  rw [getFileParseInfo, hread]
  dsimp only [bind, Except.bind]
  rw [hdoc]

theorem getParseInfo_fields {root : Json} {info : SnapshotParseInfo}
    (h : getParseInfo root = .ok info) :
    info.snapshots = objGet (some root) "snapshots" ∧
      tryGetNumFromObject (some root) "format-version" = .ok info.icebergVersion := by
  obtain ⟨version, hversion, h⟩ := bind_eq_ok.1 h
  split at h
  · obtain ⟨schemaId, -, h⟩ := bind_eq_ok.1 h
    cases h
    exact ⟨rfl, hversion⟩
  · split at h
    · cases h
    · obtain ⟨schemaId, -, h⟩ := bind_eq_ok.1 h
      cases h
      exact ⟨rfl, hversion⟩

/-- The state of a listing of the table at `path`, whose document has the parts `info`. -/
structure Lists (ctx : ClientContext) (path : String) (options : IcebergOptions)
    (st : SnapshotsState) (info : SnapshotParseInfo) : Prop where
  parseInfo : getFileParseInfo ctx path options.metadataCompressionCodec = .ok info
  snapshots : elems info.snapshots = st.snapshotIt
  parse_eq : ∀ s, parse ctx options st s =
    parseSnapShot ctx (some s) info.icebergVersion info.schemaId info.schemas options

/-- A listing that has parsed a snapshot has the parts of the document. -/
theorem lists_of_init (h : init ctx filename options = .ok st)
    (hpath : getMetaDataPath ctx filename options = .ok path) {s : Json}
    {snapshot : IcebergSnapshot} (hs : parse ctx options st s = .ok snapshot) :
    ∃ info, Lists ctx path options st info := by
  obtain ⟨hfile, hsnapshots, hversion⟩ := init_spec h hpath
  obtain ⟨info, hinfo, -⟩ := bind_eq_ok.1 hs
  obtain ⟨hsnaps, hversion'⟩ := getParseInfo_fields hinfo
  rw [hversion] at hversion'
  refine ⟨info, hfile.trans hinfo, by rw [hsnaps, hsnapshots], fun s => ?_⟩
  rw [parse, hinfo, ← Except.ok.inj hversion']
  rfl

theorem parse_spec {s : Json} {snapshot : IcebergSnapshot}
    (h : parse ctx options st s = .ok snapshot) :
    snapshot.snapshotId = num "snapshot-id" s ∧
      ctx.fromEpochMs (num "timestamp-ms" s) = .ok snapshot.timestampMs := by
  obtain ⟨info, -, h⟩ := bind_eq_ok.1 h
  cases s with
  | obj ms =>
    rw [parseSnapShot] at h
    -- the two cases of the sequence number
    split at h
    all_goals
      obtain ⟨sequenceNumber, -, h⟩ := bind_eq_ok.1 h
      obtain ⟨id, hid, h⟩ := bind_eq_ok.1 h
      obtain ⟨ms', hms, h⟩ := bind_eq_ok.1 h
      obtain ⟨ts, hts, h⟩ := bind_eq_ok.1 h
      obtain ⟨manifestList, -, h⟩ := bind_eq_ok.1 h
      obtain ⟨ret, hret, h⟩ := bind_eq_ok.1 h
      cases hret
      dsimp only at h
      split at h
      all_goals
        obtain ⟨schema, -, h⟩ := bind_eq_ok.1 h
        cases h
        exact ⟨(num_of_ok hid).symm, by rw [num_of_ok hms]; exact hts⟩
  | _ => cases h

/-! ### The snapshots that are selected -/

/-- The snapshots of the table have numbers for their ids and times, their ids are distinct, and their
times can be made timestamps. -/
structure Selectable (snapshots : List Json) : Prop where
  ids : ∀ s ∈ snapshots, HasNum "snapshot-id" s
  distinct : (snapshots.map (num "snapshot-id")).Nodup
  times : ∀ s ∈ snapshots, HasNum "timestamp-ms" s
  range : ∀ s ∈ snapshots, num "timestamp-ms" s * 1000 < 2 ^ 63

/-- How milliseconds become a timestamp, and back. -/
structure Clock (ctx : ClientContext) : Prop where
  fromEpochMs : ∀ ms : ℕ, ms * 1000 < 2 ^ 63 → ctx.fromEpochMs ms = .ok (ms * 1000 : ℕ)
  getEpochMs : ∀ ts : ℕ, ts < 2 ^ 63 → ctx.getEpochMs ts = (ts / 1000 : ℕ)

theorem Selectable.eq_of_id {snapshots : List Json} (h : Selectable snapshots) {s s' : Json}
    (hs : s ∈ snapshots) (hs' : s' ∈ snapshots)
    (heq : num "snapshot-id" s = num "snapshot-id" s') : s = s' :=
  List.inj_on_of_nodup_map h.distinct hs hs' heq

/-- The last snapshot of those made at `t`. -/
def lastAt (t : ℕ) (snapshots : List Json) : Option Json :=
  (snapshots.filter (num "timestamp-ms" · = t)).getLast?

theorem mem_of_lastAt {t : ℕ} {snapshots : List Json} {s : Json}
    (h : lastAt t snapshots = some s) : s ∈ snapshots ∧ num "timestamp-ms" s = t := by
  have hmem := List.mem_filter.1 (List.mem_of_getLast? h)
  exact ⟨hmem.1, by simpa using hmem.2⟩

theorem exists_lastAt {t : ℕ} {snapshots : List Json} {s : Json} (hs : s ∈ snapshots)
    (ht : num "timestamp-ms" s = t) : ∃ s', lastAt t snapshots = some s' := by
  have hne : snapshots.filter (num "timestamp-ms" · = t) ≠ [] :=
    List.ne_nil_of_mem (List.mem_filter.2 ⟨hs, by simpa using ht⟩)
  exact ⟨_, List.getLast?_eq_some_getLast hne⟩

variable {info : SnapshotParseInfo}

/-- `GetSnapshotById` with the id of a snapshot of the table -/
theorem getSnapshotById_eq (hlists : Lists ctx path options st info)
    (h : Selectable st.snapshotIt) {s : Json} (hs : s ∈ st.snapshotIt) :
    getSnapshotById ctx path (num "snapshot-id" s) options = parse ctx options st s := by
  have hfind := findById_eq h.ids h.distinct hs
  rw [← hlists.snapshots] at hfind
  rw [getSnapshotById, hlists.parseInfo]
  show (findById (num "snapshot-id" s) (elems info.snapshots) >>= _) = _
  rw [hfind, hlists.parse_eq]
  rfl

/-- `GetSnapshotByTimestamp` with the time of a snapshot of the table, or one after it at which there
is no later snapshot -/
theorem getSnapshotByTimestamp_eq (hlists : Lists ctx path options st info) (hclock : Clock ctx)
    (h : Selectable st.snapshotIt) {ts t : ℕ} (hts : ts < 2 ^ 63) (hle : t ≤ ts / 1000)
    (hnone : ∀ s ∈ st.snapshotIt, num "timestamp-ms" s ≤ ts / 1000 → num "timestamp-ms" s ≤ t)
    {s : Json} (hlast : lastAt t st.snapshotIt = some s) :
    getSnapshotByTimestamp ctx path ts options = parse ctx options st s := by
  obtain ⟨hs, ht⟩ := mem_of_lastAt hlast
  have hmillis : (ctx.getEpochMs ts % 2 ^ 64).toNat = ts / 1000 := by
    rw [hclock.getEpochMs ts hts]
    omega
  have hfilter : st.snapshotIt.filter (num "timestamp-ms" · ≤ ts / 1000) =
      st.snapshotIt.filter (num "timestamp-ms" · ≤ t) := by
    refine List.filter_congr fun x hx => ?_
    by_cases hx' : num "timestamp-ms" x ≤ ts / 1000
    · simp [hx', hnone x hx hx']
    · have hlt : ¬ num "timestamp-ms" x ≤ t := by omega
      simp [hx', hlt]
  have hfind : findByTimestamp (ts / 1000) st.snapshotIt 0 none = .ok (some s) := by
    rw [findByTimestamp_eq h.times, hfilter]
    exact congrArg _ ((lastMax_filter_le ⟨s, hs, ht⟩).trans hlast)
  rw [← hlists.snapshots, ← hmillis] at hfind
  rw [getSnapshotByTimestamp, hlists.parseInfo]
  show (findByTimestamp _ (elems info.snapshots) 0 none >>= _) = _
  rw [hfind, hlists.parse_eq]
  rfl

/-- `GetLatestSnapshot` when the greatest time is `t` -/
theorem getLatestSnapshot_eq (hlists : Lists ctx path options st info)
    (h : Selectable st.snapshotIt) {t : ℕ} (hmax : ∀ s ∈ st.snapshotIt, num "timestamp-ms" s ≤ t)
    {s : Json} (hlast : lastAt t st.snapshotIt = some s) :
    getLatestSnapshot ctx path options = parse ctx options st s := by
  obtain ⟨hs, ht⟩ := mem_of_lastAt hlast
  have hfind : findLatest st.snapshotIt 0 none = .ok (some s) := by
    rw [findLatest_eq h.times]
    exact congrArg _ ((lastMax_eq hmax ⟨s, hs, ht⟩).trans hlast)
  rw [← hlists.snapshots] at hfind
  rw [getLatestSnapshot, hlists.parseInfo]
  show (findLatest (elems info.snapshots) 0 none >>= _) = _
  rw [hfind, hlists.parse_eq]
  rfl

/-! ### Rows given back -/

/-- The rows that are listed can be given back: the id selects the snapshot of its row, the timestamp
the last snapshot listed with it, and a timestamp that none of them is after the latest one. -/
def FedBack (ctx : ClientContext) (path : String) (options : IcebergOptions)
    (listing : List SnapshotRow) : Prop :=
  ∀ row ∈ listing,
    (∃ snapshot, getSnapshotById ctx path row.snapshotId options = .ok snapshot ∧
      snapshot.row = row) ∧
    (∃ snapshot, getSnapshotByTimestamp ctx path row.timestampMs options = .ok snapshot ∧
      some snapshot.row = (listing.filter (·.timestampMs = row.timestampMs)).getLast?) ∧
    ∀ ts : ℕ, ts < 2 ^ 63 → (∀ r ∈ listing, r.timestampMs ≤ ts) →
      ∃ snapshot, getLatestSnapshot ctx path options = .ok snapshot ∧
        getSnapshotByTimestamp ctx path ts options = .ok snapshot

theorem HasRow.row_eq (hclock : Clock ctx) {s : Json} {r : SnapshotRow}
    (h : HasRow ctx options st s r) (hrange : num "timestamp-ms" s * 1000 < 2 ^ 63) :
    r.snapshotId = num "snapshot-id" s ∧ r.timestampMs = (num "timestamp-ms" s * 1000 : ℕ) := by
  obtain ⟨snapshot, hparse, rfl⟩ := h
  obtain ⟨hid, hts⟩ := parse_spec hparse
  rw [hclock.fromEpochMs _ hrange] at hts
  exact ⟨hid, (Except.ok.inj hts).symm⟩

/-- The last row with a timestamp is that of the last snapshot made then. -/
theorem Rows.lastAt (hclock : Clock ctx) {snapshots : List Json} {out : List SnapshotRow}
    (h : Rows ctx options st snapshots out)
    (hrange : ∀ s ∈ snapshots, num "timestamp-ms" s * 1000 < 2 ^ 63) {t : ℕ} {s : Json}
    (hlast : lastAt t snapshots = some s) :
    ∃ r, (out.filter (·.timestampMs = ((t * 1000 : ℕ) : ℤ))).getLast? = some r ∧
      HasRow ctx options st s r := by
  have hfilter : List.Forall₂ (HasRow ctx options st)
      (snapshots.filter (num "timestamp-ms" · = t))
      (out.filter (·.timestampMs = ((t * 1000 : ℕ) : ℤ))) := by
    clear hlast
    induction h with
    | nil => exact List.Forall₂.nil
    | @cons x r l l' hrow _ ih =>
      have ih' := ih fun y hy => hrange y (List.mem_cons_of_mem _ hy)
      have hts := (hrow.row_eq hclock (hrange x List.mem_cons_self)).2
      by_cases hx : num "timestamp-ms" x = t
      · rw [List.filter_cons_of_pos (by simpa using hx),
          List.filter_cons_of_pos (by simp [hts, hx])]
        exact List.Forall₂.cons hrow ih'
      · have hne : ¬ r.timestampMs = (t * 1000 : ℕ) := by omega
        rw [List.filter_cons_of_neg (by simpa using hx), List.filter_cons_of_neg (by simpa using hne)]
        exact ih'
  rw [SnapshotsState.lastAt, List.getLast?_eq_head?_reverse] at hlast
  rw [List.getLast?_eq_head?_reverse]
  have hrev := List.forall₂_reverse_iff.2 hfilter
  generalize (snapshots.filter (num "timestamp-ms" · = t)).reverse = l at hlast hrev
  generalize (out.filter (·.timestampMs = ((t * 1000 : ℕ) : ℤ))).reverse = l' at hrev ⊢
  cases hrev with
  | nil => cases hlast
  | cons hrow _ =>
    cases hlast
    exact ⟨_, rfl, hrow⟩

/-- What the rows of a listing that was completed say about its snapshots. -/
structure Listing (ctx : ClientContext) (path : String) (options : IcebergOptions)
    (st : SnapshotsState) (out : List SnapshotRow) : Prop where
  selectable : Selectable st.snapshotIt
  clock : Clock ctx
  rows : Rows ctx options st (listed st.snapshotIt) out
  nonempty : st.snapshotIt ≠ []
  lists : ∃ info, Lists ctx path options st info

namespace Listing

variable {out : List SnapshotRow}

theorem of_drain (hinit : init ctx filename options = .ok st)
    (hpath : getMetaDataPath ctx filename options = .ok path) (hclock : Clock ctx)
    (h : Selectable st.snapshotIt) (hne : st.snapshotIt ≠ []) {n : ℕ}
    {outs : List (List SnapshotRow)}
    (hdrain : drain (call ctx options) n st = some (.ok outs)) :
    Listing ctx path options st outs.flatten := by
  have hrows := rows_of_drain hdrain
  obtain ⟨s₀, hs₀⟩ := List.exists_mem_of_ne_nil _ (listed_ne_nil hne)
  obtain ⟨r₀, -, snapshot₀, hparse₀, -⟩ := hrows.exists_row hs₀
  exact ⟨h, hclock, hrows, hne, lists_of_init hinit hpath hparse₀⟩

theorem mem (_ : Listing ctx path options st out) {s : Json} (hs : s ∈ listed st.snapshotIt) :
    s ∈ st.snapshotIt :=
  (listed_sublist _).subset hs

theorem row_eq (h : Listing ctx path options st out) {s : Json} {r : SnapshotRow}
    (hs : s ∈ listed st.snapshotIt) (hr : HasRow ctx options st s r) :
    r.snapshotId = num "snapshot-id" s ∧ r.timestampMs = (num "timestamp-ms" s * 1000 : ℕ) :=
  hr.row_eq h.clock (h.selectable.range s (h.mem hs))

/-- The time of a snapshot selects the last snapshot made then. -/
theorem select_at (h : Listing ctx path options st out) {s s' : Json} (hs : s ∈ st.snapshotIt)
    (hlast : lastAt (num "timestamp-ms" s) st.snapshotIt = some s') :
    getSnapshotByTimestamp ctx path (num "timestamp-ms" s * 1000 : ℕ) options =
      parse ctx options st s' := by
  obtain ⟨info, hlists⟩ := h.lists
  exact getSnapshotByTimestamp_eq hlists h.clock h.selectable (h.selectable.range s hs) (by omega)
    (fun x _ hx => by omega) hlast

/-- Rows that can be given back show the latest snapshot: otherwise it is not the one selected at the
greatest time that is listed. -/
theorem latest_of_fedBack (h : Listing ctx path options st out)
    (hback : FedBack ctx path options out) {s : Json} (hs : s ∈ st.snapshotIt) :
    ∃ s' ∈ listed st.snapshotIt, num "timestamp-ms" s ≤ num "timestamp-ms" s' := by
  obtain ⟨top, htop, hmax⟩ := exists_max (f := num "timestamp-ms") (listed_ne_nil h.nonempty)
  obtain ⟨last, hlast, hlastmax⟩ := exists_max (f := num "timestamp-ms") h.nonempty
  obtain ⟨info, hlists⟩ := h.lists
  refine ⟨top, htop, ?_⟩
  by_contra hlt
  obtain ⟨x, hx⟩ := exists_lastAt (h.mem htop) rfl
  obtain ⟨y, hy⟩ := exists_lastAt hlast rfl
  obtain ⟨r, hr, hsr⟩ := h.rows.exists_row htop
  have hts : ∀ r ∈ out, r.timestampMs ≤ (num "timestamp-ms" top * 1000 : ℕ) := by
    intro r hr
    obtain ⟨s', hs', hr'⟩ := h.rows.exists_snapshot hr
    have hle := hmax s' hs'
    rw [(h.row_eq hs' hr').2]
    exact_mod_cast Nat.mul_le_mul_right 1000 hle
  obtain ⟨-, -, hlatest⟩ := hback r hr
  obtain ⟨snapshot, h1, h2⟩ := hlatest _ (h.selectable.range top (h.mem htop)) hts
  rw [getLatestSnapshot_eq hlists h.selectable hlastmax hy] at h1
  rw [h.select_at (h.mem htop) hx] at h2
  have hxy := h.selectable.eq_of_id (mem_of_lastAt hx).1 (mem_of_lastAt hy).1
    ((parse_spec h2).1.symm.trans (parse_spec h1).1)
  have hxt := (mem_of_lastAt hx).2
  have hyt := (mem_of_lastAt hy).2
  have hslast := hlastmax s hs
  rw [hxy] at hxt
  omega

/-- Rows that can be given back show the last snapshot of every time that is listed. -/
theorem last_of_fedBack (h : Listing ctx path options st out)
    (hback : FedBack ctx path options out) {s : Json} (hs : s ∈ listed st.snapshotIt) :
    lastAt (num "timestamp-ms" s) st.snapshotIt =
      lastAt (num "timestamp-ms" s) (listed st.snapshotIt) := by
  obtain ⟨r, hr, hsr⟩ := h.rows.exists_row hs
  obtain ⟨x, hx⟩ := exists_lastAt (h.mem hs) rfl
  obtain ⟨y, hy⟩ := exists_lastAt hs rfl
  obtain ⟨-, ⟨snapshot, hselect, hlast⟩, -⟩ := hback r hr
  obtain ⟨r', hr', hyr'⟩ := Rows.lastAt h.clock h.rows
    (fun x hx => h.selectable.range x (h.mem hx)) hy
  rw [(h.row_eq hs hsr).2] at hselect hlast
  rw [h.select_at (h.mem hs) hx] at hselect
  rw [hr', Option.some.injEq] at hlast
  -- both have the row that the timestamp selects
  have hidx := (parse_spec hselect).1
  have hidy := (h.row_eq (mem_of_lastAt hy).1 hyr').1
  rw [← hlast] at hidy
  rw [hx, hy, h.selectable.eq_of_id (mem_of_lastAt hx).1 (h.mem (mem_of_lastAt hy).1)
    (hidx.symm.trans hidy)]

/-- Rows that show them can be given back. -/
theorem fedBack (h : Listing ctx path options st out)
    (hlasts : ∀ s ∈ listed st.snapshotIt, lastAt (num "timestamp-ms" s) st.snapshotIt =
      lastAt (num "timestamp-ms" s) (listed st.snapshotIt))
    (hlatest : ∀ s ∈ st.snapshotIt, ∃ s' ∈ listed st.snapshotIt,
      num "timestamp-ms" s ≤ num "timestamp-ms" s') :
    FedBack ctx path options out := by
  intro r hr
  obtain ⟨info, hlists⟩ := h.lists
  obtain ⟨s, hs, hsr⟩ := h.rows.exists_snapshot hr
  obtain ⟨hid, hts⟩ := h.row_eq hs hsr
  refine ⟨?_, ?_, fun ts htsmax hle => ?_⟩
  · obtain ⟨snapshot, hparse, hsnap⟩ := hsr
    exact ⟨snapshot, by rw [hid, getSnapshotById_eq hlists h.selectable (h.mem hs), hparse], hsnap⟩
  · obtain ⟨y, hy⟩ := exists_lastAt hs rfl
    obtain ⟨r', hr', snapshot, hparse, hsnap⟩ := Rows.lastAt h.clock h.rows
      (fun x hx => h.selectable.range x (h.mem hx)) hy
    refine ⟨snapshot, ?_, ?_⟩
    · rw [hts, h.select_at (h.mem hs) ((hlasts s hs).trans hy), hparse]
    · rw [hts, hr', hsnap]
  · -- the latest time is that of a snapshot that is listed
    obtain ⟨top, htop, hmax⟩ := exists_max (f := num "timestamp-ms") (listed_ne_nil h.nonempty)
    have htopmax : ∀ x ∈ st.snapshotIt, num "timestamp-ms" x ≤ num "timestamp-ms" top := by
      intro x hx
      obtain ⟨s', hs', hle⟩ := hlatest x hx
      exact hle.trans (hmax s' hs')
    obtain ⟨y, hy⟩ := exists_lastAt htop rfl
    have hy' := (hlasts top htop).trans hy
    obtain ⟨-, -, snapshot, hparse, -⟩ := h.rows.exists_row (mem_of_lastAt hy).1
    obtain ⟨rtop, hrtop, htoprow⟩ := h.rows.exists_row htop
    have htsle : num "timestamp-ms" top ≤ ts / 1000 := by
      have := hle rtop hrtop
      rw [(h.row_eq htop htoprow).2] at this
      omega
    refine ⟨snapshot, ?_, ?_⟩
    · rw [getLatestSnapshot_eq hlists h.selectable htopmax hy', hparse]
    · rw [getSnapshotByTimestamp_eq hlists h.clock h.selectable htsmax htsle
        (fun x hx _ => htopmax x hx) hy', hparse]

end Listing

/-- **Rows can be given back** exactly when the last of the snapshots of any time that is listed is
listed itself, and no snapshot is later than all that are listed. -/
theorem fedBack_iff (hinit : init ctx filename options = .ok st)
    (hpath : getMetaDataPath ctx filename options = .ok path) (hclock : Clock ctx)
    (h : Selectable st.snapshotIt) {n : ℕ} {outs : List (List SnapshotRow)}
    (hdrain : drain (call ctx options) n st = some (.ok outs)) :
    FedBack ctx path options outs.flatten ↔
      (∀ s ∈ listed st.snapshotIt,
        lastAt (num "timestamp-ms" s) st.snapshotIt =
          lastAt (num "timestamp-ms" s) (listed st.snapshotIt)) ∧
      ∀ s ∈ st.snapshotIt, ∃ s' ∈ listed st.snapshotIt,
        num "timestamp-ms" s ≤ num "timestamp-ms" s' := by
  by_cases hempty : st.snapshotIt = []
  · -- a table without snapshots has no rows
    have hrows := rows_of_drain hdrain
    rw [hempty] at hrows ⊢
    rw [List.forall₂_nil_left_iff.1 hrows]
    exact ⟨fun _ => ⟨nofun, nofun⟩, fun _ => nofun⟩
  have hlisting := Listing.of_drain hinit hpath hclock h hempty hdrain
  exact ⟨fun hback => ⟨fun _ hs => hlisting.last_of_fedBack hback hs,
    fun _ hs => hlisting.latest_of_fedBack hback hs⟩, fun hcond => hlisting.fedBack hcond.1 hcond.2⟩

/-- The clock of a session. -/
theorem clock_context (t : TableFiles) : Clock t.context where
  fromEpochMs ms _ := by simp [TableFiles.context]
  getEpochMs ts _ := by simp [TableFiles.context]

/-- Three snapshots, two of them made at the same time. -/
theorem fedBack_three :
    let snapshots := [snapshotJson 1 0, snapshotJson 2 5, snapshotJson 3 5]
    FedBack (snapshotsTable snapshots).context "v1.metadata.json" {}
      [⟨1, 1, 0, "snap.avro"⟩, ⟨1, 2, 5000, "snap.avro"⟩, ⟨1, 3, 5000, "snap.avro"⟩] := by
  intro snapshots
  have hsel : Selectable snapshots := by
    refine ⟨?_, by decide, ?_, by decide⟩
    all_goals
      intro s hs
      simp only [snapshots, List.mem_cons, List.not_mem_nil, or_false] at hs
      rcases hs with rfl | rfl | rfl <;> exact ⟨_, rfl⟩
  have hdrain : drain (call (snapshotsTable snapshots).context {}) 2 (snapshotsState snapshots) =
      some (.ok [[⟨1, 1, 0, "snap.avro"⟩, ⟨1, 2, 5000, "snap.avro"⟩, ⟨1, 3, 5000, "snap.avro"⟩],
        []]) :=
    rfl
  exact (fedBack_iff (init_snapshotsTable snapshots) rfl (clock_context _) hsel hdrain).2
    ⟨fun _ _ => rfl, fun s hs => ⟨s, hs, le_rfl⟩⟩

theorem num_snapshotJson {i : ℕ} (hi : i < 2 ^ 64) :
    num "snapshot-id" (snapshotJson i i) = i ∧ num "timestamp-ms" (snapshotJson i i) = i := by
  have hvalue : getUInt (.int i) = i := by
    simp only [getUInt]
    omega
  exact ⟨hvalue, hvalue⟩

theorem selectable_numberedSnapshots {n : ℕ} (hn : n * 1000 < 2 ^ 63) :
    Selectable (numberedSnapshots n) := by
  have hmem : ∀ s ∈ numberedSnapshots n, ∃ i < n, s = snapshotJson i i := by
    intro s hs
    obtain ⟨i, hi, rfl⟩ := List.mem_map.1 hs
    exact ⟨i, List.mem_range.1 hi, rfl⟩
  refine ⟨fun s hs => ?_, ?_, fun s hs => ?_, fun s hs => ?_⟩
  · obtain ⟨i, -, rfl⟩ := hmem s hs
    exact ⟨_, rfl⟩
  · have hids : (numberedSnapshots n).map (num "snapshot-id") = List.range n := by
      rw [numberedSnapshots, List.map_map]
      refine (List.map_congr_left fun i hi => ?_).trans (List.map_id _)
      have hlt := List.mem_range.1 hi
      exact (num_snapshotJson (by omega)).1
    rw [hids]
    exact List.nodup_range
  · obtain ⟨i, -, rfl⟩ := hmem s hs
    exact ⟨_, rfl⟩
  · obtain ⟨i, hi, rfl⟩ := hmem s hs
    rw [(num_snapshotJson (by omega)).2]
    exact (Nat.mul_le_mul_right 1000 hi.le).trans_lt hn

theorem listed_numberedSnapshots {n : ℕ} (hn : n = standardVectorSize + 1) :
    ∀ s ∈ listed (numberedSnapshots n), ∃ i < standardVectorSize, s = snapshotJson i i := by
  intro s hs
  have hlen : (numberedSnapshots n).length ≤ standardVectorSize + 1 :=
    (length_numberedSnapshots n).trans_le hn.le
  rw [listed, listedFrom_eq, List.drop_eq_nil_of_le hlen] at hs
  have htake : s ∈ (numberedSnapshots n).take standardVectorSize := by
    rcases List.mem_append.1 hs with hs | hs
    · exact hs
    · cases hs
  rw [numberedSnapshots, ← List.map_take, List.take_range] at htake
  obtain ⟨i, hi, rfl⟩ := List.mem_map.1 htake
  exact ⟨i, (List.mem_range.1 hi).trans_le (Nat.min_le_left _ _), rfl⟩

/-- One snapshot more than fits in the chunk: the latest one is not listed. -/
theorem not_fedBack_numberedSnapshots {n : ℕ} (hn : n = standardVectorSize + 1) :
    ∃ m outs, drain (call (snapshotsTable (numberedSnapshots n)).context {}) m
        (snapshotsState (numberedSnapshots n)) = some (.ok outs) ∧
      ¬ FedBack (snapshotsTable (numberedSnapshots n)).context "v1.metadata.json" {}
        outs.flatten := by
  have hsize : standardVectorSize = 2048 := rfl
  have hsel : Selectable (numberedSnapshots n) := selectable_numberedSnapshots (by omega)
  have hne : numberedSnapshots n ≠ [] := by
    rw [← List.length_pos_iff, length_numberedSnapshots]
    omega
  obtain ⟨out, hrows⟩ := exists_rows (parse_numberedSnapshots n)
  obtain ⟨m, outs, hdrain, -⟩ := snapshots_drained hrows
  refine ⟨m, outs, hdrain, fun hback => ?_⟩
  have hlisting := Listing.of_drain (init_snapshotsTable _) rfl (clock_context _) hsel hne hdrain
  have hmem : snapshotJson standardVectorSize standardVectorSize ∈ numberedSnapshots n :=
    List.mem_map_of_mem (List.mem_range.2 (by omega))
  obtain ⟨s, hs, hle⟩ := hlisting.latest_of_fedBack hback hmem
  obtain ⟨i, hi, rfl⟩ := listed_numberedSnapshots hn s hs
  rw [(num_snapshotJson (by omega)).2, (num_snapshotJson (by omega)).2] at hle
  omega

theorem not_fedBack_full_chunk :
    let snapshots := numberedSnapshots (standardVectorSize + 1)
    init (snapshotsTable snapshots).context "v1.metadata.json" {} =
        .ok (snapshotsState snapshots) ∧
      Selectable snapshots ∧
      ∃ m outs, drain (call (snapshotsTable snapshots).context {}) m (snapshotsState snapshots) =
          some (.ok outs) ∧
        ¬ FedBack (snapshotsTable snapshots).context "v1.metadata.json" {} outs.flatten :=
  ⟨init_snapshotsTable _, selectable_numberedSnapshots (by decide),
    not_fedBack_numberedSnapshots rfl⟩

end SnapshotsState

end DuckIceberg
