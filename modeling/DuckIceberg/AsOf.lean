import DuckIceberg.SnapshotSelection

/-!
# The snapshot as of a timestamp

`FindSnapshotByIdTimestampInternal` compares the milliseconds of a timestamp as an unsigned number
with the times of the snapshots.  From 1970 on that is the order of the times, and the snapshot it
selects is the one that was current then; the milliseconds of an earlier timestamp are above every
time, so that the latest snapshot is selected (`selectsAsOf_iff`).
-/

namespace DuckIceberg

open Json IcebergUtils LastMax

namespace IcebergSnapshot

variable {ctx : ClientContext} {snapshots : Option Json} {t t' : ℤ}

/-- The time of a snapshot in the metadata is a number below `2 ^ 63`. -/
def HasTime (s : Json) : Prop :=
  ∃ n : ℕ, objGet (some s) "timestamp-ms" = some (.int n) ∧ n < 2 ^ 63

theorem HasTime.hasNum {s : Json} (h : HasTime s) : HasNum "timestamp-ms" s := by
  obtain ⟨n, hn, -⟩ := h
  exact ⟨_, by rw [tryGetNumFromObject, hn]⟩

theorem HasTime.lt {s : Json} (h : HasTime s) : num "timestamp-ms" s < 2 ^ 63 := by
  obtain ⟨n, hn, hlt⟩ := h
  have hnum : num "timestamp-ms" s = n := by
    unfold num
    rw [hn]
    show ((n : ℤ) % 2 ^ 64).toNat = n
    omega
  omega

/-- `Timestamp::GetEpochMs` divides the microseconds, as a signed number. -/
def SignedClock (ctx : ClientContext) : Prop :=
  ∀ t : ℤ, -2 ^ 63 ≤ t → t < 2 ^ 63 → ctx.getEpochMs t = t.tdiv 1000

/-- The division rounds towards zero. -/
theorem tdiv_thousand (t : ℤ) :
    (0 ≤ t ∧ t.tdiv 1000 = t / 1000) ∨ (t < 0 ∧ t.tdiv 1000 = -(-t / 1000)) := by
  by_cases ht : 0 ≤ t
  · exact Or.inl ⟨ht, Int.tdiv_eq_ediv_of_nonneg ht⟩
  · have hneg : (-t).tdiv 1000 = -t / 1000 := Int.tdiv_eq_ediv_of_nonneg (by omega)
    rw [Int.neg_tdiv] at hneg
    exact Or.inr ⟨by omega, by omega⟩

/-! ### What is current at a time -/

/-- The snapshots made up to a time in milliseconds. -/
def upTo (ms : ℤ) (l : List Json) : List Json := l.filter fun s => (num "timestamp-ms" s : ℤ) ≤ ms

theorem upTo_subset {ms ms' : ℤ} (h : ms ≤ ms') (l : List Json) : upTo ms l ⊆ upTo ms' l := by
  intro s hs
  obtain ⟨hmem, hle⟩ := List.mem_filter.1 hs
  refine List.mem_filter.2 ⟨hmem, ?_⟩
  simp only [decide_eq_true_eq] at hle ⊢
  exact hle.trans h

theorem upTo_of_neg {ms : ℤ} (h : ms < 0) (l : List Json) : upTo ms l = [] := by
  rw [upTo, List.filter_eq_nil_iff]
  intro s _
  simp only [decide_eq_true_eq]
  omega

/-- The snapshot that is current at a time is the last listed of the latest ones made up to it, and
there is none when all are made after it. -/
def AsOf (ms : ℤ) (l : List Json) (o : Option Json) : Prop :=
  IsLastMax (num "timestamp-ms") (upTo ms l) o

/-- What is made of the snapshot that is current at `t`: it is parsed, and there is an exception when
there is none. -/
def ofCurrent (ctx : ClientContext) (info : SnapshotParseInfo) (t : ℤ) (options : IcebergOptions) :
    Option Json → Except Error IcebergSnapshot
  | none => .error ⟨.io, "Could not find latest snapshots for timestamp " ++ ctx.timestampToString t⟩
  | some s => parseSnapShot ctx (some s) info.icebergVersion info.schemaId info.schemas options

/-- The snapshot that is current at `t` is the one that is found, and `GetSnapshotByTimestamp` returns
what is made of it. -/
def SelectsAsOf (ctx : ClientContext) (snapshots : Option Json) (t : ℤ) : Prop :=
  ∃ o, findSnapshotByIdTimestampInternal ctx snapshots t = .ok o ∧
    AsOf (t.tdiv 1000) (elems snapshots) o ∧
    ∀ path options info, getFileParseInfo ctx path options.metadataCompressionCodec = .ok info →
      info.snapshots = snapshots →
      getSnapshotByTimestamp ctx path t options = ofCurrent ctx info t options o

/-- A later timestamp selects no earlier snapshot. -/
def SelectsNoEarlier (ctx : ClientContext) (snapshots : Option Json) (t t' : ℤ) : Prop :=
  ∀ s o, findSnapshotByIdTimestampInternal ctx snapshots t = .ok (some s) →
    findSnapshotByIdTimestampInternal ctx snapshots t' = .ok o →
      ∃ s', o = some s' ∧ num "timestamp-ms" s ≤ num "timestamp-ms" s'

/-! ### What is found -/

/-- The loop finds what is current at the time it is given as an unsigned number. -/
theorem find_eq (ctx : ClientContext) (h : ∀ s ∈ elems snapshots, HasTime s) (t : ℤ) :
    findSnapshotByIdTimestampInternal ctx snapshots t =
      .ok (lastMax (num "timestamp-ms") (upTo (ctx.getEpochMs t % 2 ^ 64) (elems snapshots))) := by
  rw [findSnapshotByIdTimestampInternal, findByTimestamp_eq fun s hs => (h s hs).hasNum]
  have hfilter : (elems snapshots).filter
      (num "timestamp-ms" · ≤ (ctx.getEpochMs t % 2 ^ 64).toNat) =
        upTo (ctx.getEpochMs t % 2 ^ 64) (elems snapshots) := by
    refine List.filter_congr fun s _ => ?_
    simp only [decide_eq_decide]
    omega
  rw [hfilter]
  rfl

theorem getSnapshotByTimestamp_of_find {o : Option Json}
    (h : findSnapshotByIdTimestampInternal ctx snapshots t = .ok o) {path : String}
    {options : IcebergOptions} {info : SnapshotParseInfo}
    (hinfo : getFileParseInfo ctx path options.metadataCompressionCodec = .ok info)
    (hsnapshots : info.snapshots = snapshots) :
    getSnapshotByTimestamp ctx path t options = ofCurrent ctx info t options o := by
  rw [getSnapshotByTimestamp, hinfo]
  show (findSnapshotByIdTimestampInternal ctx info.snapshots t >>= _) = _
  rw [hsnapshots, h]
  cases o with
  | none => rfl
  | some s => rfl

/-- From 1970 on the unsigned number is the time. -/
theorem find_asOf (hclock : SignedClock ctx) (h : ∀ s ∈ elems snapshots, HasTime s)
    (hlo : -1000 < t) (hhi : t < 2 ^ 63) :
    ∃ o, findSnapshotByIdTimestampInternal ctx snapshots t = .ok o ∧
      AsOf (t.tdiv 1000) (elems snapshots) o := by
  have hms : ctx.getEpochMs t % 2 ^ 64 = t.tdiv 1000 := by
    have hdiv := tdiv_thousand t
    rw [hclock t (by omega) hhi]
    omega
  exact ⟨_, find_eq ctx h t, by rw [hms]; exact isLastMax_lastMax _⟩

/-- Before 1970 the unsigned number is above every time, and some snapshot is found. -/
theorem find_of_neg (hclock : SignedClock ctx) (h : ∀ s ∈ elems snapshots, HasTime s)
    (hne : elems snapshots ≠ []) (hlo : -2 ^ 63 ≤ t) (hneg : t ≤ -1000) :
    ∃ s, findSnapshotByIdTimestampInternal ctx snapshots t = .ok (some s) := by
  have hall : upTo (ctx.getEpochMs t % 2 ^ 64) (elems snapshots) = elems snapshots := by
    rw [upTo, List.filter_eq_self]
    intro s hs
    have hlt := (h s hs).lt
    have hdiv := tdiv_thousand t
    rw [hclock t hlo (by omega)]
    simp only [decide_eq_true_eq]
    omega
  have hfind := find_eq ctx h t
  rw [hall] at hfind
  have hlast := isLastMax_lastMax (f := num "timestamp-ms") (elems snapshots)
  cases ho : lastMax (num "timestamp-ms") (elems snapshots) with
  | none =>
    rw [ho] at hlast
    exact absurd hlast hne
  | some s => exact ⟨s, by rw [hfind, ho]⟩

theorem selectsNoEarlier (hclock : SignedClock ctx) (h : ∀ s ∈ elems snapshots, HasTime s)
    (hlo : -1000 < t) (hle : t ≤ t') (hhi : t' < 2 ^ 63) :
    SelectsNoEarlier ctx snapshots t t' := by
  intro s o hs ho
  obtain ⟨o₁, ho₁, hasOf₁⟩ := find_asOf hclock h hlo (by omega)
  obtain ⟨o₂, ho₂, hasOf₂⟩ := find_asOf hclock h (show -1000 < t' by omega) hhi
  obtain rfl := Except.ok.inj (hs.symm.trans ho₁)
  obtain rfl := Except.ok.inj (ho.symm.trans ho₂)
  have hdiv := tdiv_thousand t
  have hdiv' := tdiv_thousand t'
  have hms : t.tdiv 1000 ≤ t'.tdiv 1000 := by omega
  exact IsLastMax.le (upTo_subset hms _) hasOf₁ hasOf₂

/-- **As-of selection is correct** exactly from 1970 on: what is current at the timestamp is selected,
and later timestamps select nothing earlier.  Before that it is correct for a table without
snapshots only. -/
theorem selectsAsOf_iff (hclock : SignedClock ctx) (h : ∀ s ∈ elems snapshots, HasTime s)
    (hlo : -2 ^ 63 ≤ t) (hhi : t < 2 ^ 63) :
    (SelectsAsOf ctx snapshots t ∧
      ∀ t', t ≤ t' → t' < 2 ^ 63 → SelectsNoEarlier ctx snapshots t t') ↔
    -1000 < t ∨ elems snapshots = [] := by
  constructor
  · rintro ⟨⟨o, hfind, hasOf, -⟩, -⟩
    by_contra hcond
    rw [not_or] at hcond
    obtain ⟨s, hs⟩ := find_of_neg hclock h hcond.2 hlo (by omega)
    obtain rfl := Except.ok.inj (hfind.symm.trans hs)
    -- nothing was made before 1970
    have hdiv := tdiv_thousand t
    rw [AsOf, upTo_of_neg (by omega)] at hasOf
    obtain ⟨-, pre, post, hnil, -⟩ := hasOf
    simp at hnil
  · rintro (hpos | hnil)
    · obtain ⟨o, hfind, hasOf⟩ := find_asOf hclock h hpos hhi
      exact ⟨⟨o, hfind, hasOf, fun _ _ _ => getSnapshotByTimestamp_of_find hfind⟩,
        fun t' hle hhi' => selectsNoEarlier hclock h hpos hle hhi'⟩
    · have hnone : ∀ t, findSnapshotByIdTimestampInternal ctx snapshots t = .ok none := by
        intro t
        rw [find_eq ctx h, hnil]
        rfl
      refine ⟨⟨none, hnone t, ?_, fun _ _ _ => getSnapshotByTimestamp_of_find (hnone t)⟩, ?_⟩
      · rw [hnil]
        rfl
      · intro t' _ _ s o hs _
        rw [hnone] at hs
        cases hs

/-! ### A table with three snapshots -/

/-- The session of such a table, with the signed division. -/
def signedContext (l : List Json) : ClientContext :=
  { (SnapshotsState.snapshotsTable l).context with getEpochMs := fun t => t.tdiv 1000 }

/-- Three snapshots, not in the order of their times. -/
def threeSnapshots : List Json :=
  [SnapshotsState.snapshotJson 1 5, SnapshotsState.snapshotJson 2 0,
    SnapshotsState.snapshotJson 3 5]

theorem hasTime_threeSnapshots : ∀ s ∈ elems (some (.arr threeSnapshots)), HasTime s := by
  intro s hs
  simp only [elems, threeSnapshots, List.mem_cons, List.not_mem_nil, or_false] at hs
  rcases hs with rfl | rfl | rfl
  · exact ⟨5, rfl, by norm_num⟩
  · exact ⟨0, rfl, by norm_num⟩
  · exact ⟨5, rfl, by norm_num⟩

theorem selectsAsOf_three :
    SelectsAsOf (signedContext threeSnapshots) (some (.arr threeSnapshots)) 5000 ∧
      ∀ t', 5000 ≤ t' → t' < 2 ^ 63 →
        SelectsNoEarlier (signedContext threeSnapshots) (some (.arr threeSnapshots)) 5000 t' :=
  (selectsAsOf_iff (fun _ _ _ => rfl) hasTime_threeSnapshots (by norm_num) (by norm_num)).2
    (Or.inl (by norm_num))

/-- At the last second of 1969 the latest snapshot is selected. -/
theorem not_selectsAsOf_before :
    findSnapshotByIdTimestampInternal (signedContext threeSnapshots) (some (.arr threeSnapshots))
        (-1000000) = .ok (some (SnapshotsState.snapshotJson 3 5)) ∧
      upTo (Int.tdiv (-1000000) 1000) threeSnapshots = [] ∧
      ¬ SelectsAsOf (signedContext threeSnapshots) (some (.arr threeSnapshots)) (-1000000) := by
  have hfind : findSnapshotByIdTimestampInternal (signedContext threeSnapshots)
      (some (.arr threeSnapshots)) (-1000000) = .ok (some (SnapshotsState.snapshotJson 3 5)) := rfl
  refine ⟨hfind, rfl, ?_⟩
  rintro ⟨o, ho, hasOf, -⟩
  obtain rfl := Except.ok.inj (ho.symm.trans hfind)
  obtain ⟨-, pre, post, hnil, -⟩ := hasOf
  rw [show elems (some (.arr threeSnapshots)) = threeSnapshots from rfl,
    upTo_of_neg (by decide)] at hnil
  simp at hnil

end IcebergSnapshot

end DuckIceberg
