import DuckIceberg.TableFiles

/-!
# Named parameters

What `iceberg_scan`, `iceberg_metadata` and `iceberg_snapshots` make of their named parameters, which
they find in a hash map, in no order one could rely on.

* `takeOptions_eq_ok_iff`: the options that the loops leave are those the map says, whatever its order;
* `parseOptions_eq_ok_iff`: `iceberg_scan` accepts a map when it does not have both a snapshot id and a
  timestamp;
* `same_metadata_file`: so the three functions find the same metadata file.
-/

namespace DuckIceberg

open Strings

/-! ### Values -/

/-- The types of the named parameters. -/
inductive ParameterType
  | boolean
  | varchar
  | ubigint
  | timestamp
  deriving DecidableEq, Repr

/-- `Value`, of one of these types or of another one -/
inductive ParameterValue
  | boolean (b : Bool)
  | varchar (s : String)
  | ubigint (n : ℕ)
  | timestamp (t : ℤ)
  | other (text : String)
  deriving DecidableEq, Repr

namespace ParameterValue

/-- The type of a value. -/
def type : ParameterValue → Option ParameterType
  | .boolean _ => some .boolean
  | .varchar _ => some .varchar
  | .ubigint _ => some .ubigint
  | .timestamp _ => some .timestamp
  | .other _ => none

/-- A value is not of the type that it is read as. -/
def mismatch : Error := ⟨.internal, "value of another type"⟩

/-- `BooleanValue::Get` -/
def getBoolean : ParameterValue → Except Error Bool
  | .boolean b => .ok b
  | _ => .error mismatch

/-- `StringValue::Get` -/
def getString : ParameterValue → Except Error String
  | .varchar s => .ok s
  | _ => .error mismatch

/-- `GetValue<uint64_t>` -/
def getUBigInt : ParameterValue → Except Error ℕ
  | .ubigint n => .ok n
  | _ => .error mismatch

/-- `GetValue<timestamp_t>` -/
def getTimestamp : ParameterValue → Except Error ℤ
  | .timestamp t => .ok t
  | _ => .error mismatch

end ParameterValue

/-! ### The loops -/

/-- The parameters of `iceberg_scan`, without those of `parquet_scan`: `AddNamedParameters` -/
def addNamedParameters : List (String × ParameterType) :=
  [("skip_schema_inference", .boolean), ("allow_moved_paths", .boolean), ("mode", .varchar),
    ("metadata_compression_codec", .varchar), ("version", .varchar),
    ("version_name_format", .varchar), ("snapshot_from_timestamp", .timestamp),
    ("snapshot_from_id", .ubigint)]

/-- The parameters that `ParseOption` takes. -/
def scanNames : List String :=
  ["allow_moved_paths", "metadata_compression_codec", "skip_schema_inference", "version",
    "version_name_format", "snapshot_from_id", "snapshot_from_timestamp"]

/-- The parameters that `IcebergMetaDataBind` takes. -/
def metadataNames : List String :=
  ["allow_moved_paths", "metadata_compression_codec", "skip_schema_inference", "version",
    "version_name_format"]

/-- The parameters that `IcebergSnapshotsBind` takes. -/
def snapshotsNames : List String :=
  ["metadata_compression_codec", "version", "version_name_format", "skip_schema_inference"]

/-- A second parameter selects a snapshot.  The text is the same for both of them. -/
def bothSnapshots : Error :=
  ⟨.invalidInput, "Can't use 'snapshot_from_id' in combination with 'snapshot_from_timestamp'"⟩

/-- The branches of a function that takes these parameters, or `none` if it does not take this one. -/
def takeOption (names : List String) (loption : String) (val : ParameterValue)
    (options : IcebergOptions) : Except Error (Option IcebergOptions) := do
  if loption ∉ names then return none
  else if loption = "allow_moved_paths" then
    return some { options with allowMovedPaths := ← val.getBoolean }
  else if loption = "metadata_compression_codec" then
    return some { options with metadataCompressionCodec := ← val.getString }
  else if loption = "skip_schema_inference" then
    return some { options with skipSchemaInference := ← val.getBoolean }
  else if loption = "version" then
    return some { options with tableVersion := ← val.getString }
  else if loption = "version_name_format" then
    return some { options with versionNameFormat := ← val.getString }
  else if loption = "snapshot_from_id" then
    if options.snapshotSource ≠ .latest then throw bothSnapshots
    return some { options with snapshotSource := .fromId, snapshotId := ← val.getUBigInt }
  else if loption = "snapshot_from_timestamp" then
    if options.snapshotSource ≠ .latest then throw bothSnapshots
    return some { options with
      snapshotSource := .fromTimestamp, snapshotTimestamp := ← val.getTimestamp }
  else return none

/-- `IcebergMultiFileReader::ParseOption`.  `base` is `MultiFileReader::ParseOption`. -/
def parseOption (base : String → ParameterValue → Except Error Bool) (key : String)
    (val : ParameterValue) (options : IcebergOptions) : Except Error (Bool × IcebergOptions) := do
  match ← takeOption scanNames (lower key) val options with
  | some options => return (true, options)
  | none => return (← base key val, options)

/-- The options that `ParseOption` has set when it has been given all parameters. -/
def parseOptions (base : String → ParameterValue → Except Error Bool)
    (parameters : List (String × ParameterValue)) : Except Error IcebergOptions :=
  parameters.foldlM (fun options kv => do return (← parseOption base kv.1 kv.2 options).2) {}

/-- The loop over the parameters, when `others` is what is done with those not taken. -/
def takeOptions (names : List String) (others : String × ParameterValue → Except Error Unit)
    (parameters : List (String × ParameterValue)) : Except Error IcebergOptions :=
  parameters.foldlM (fun options kv => do
    match ← takeOption names (lower kv.1) kv.2 options with
    | some options => return options
    | none => do
      others kv
      return options) {}

/-- The loop of `IcebergMetaDataBind` -/
def metadataOptions : List (String × ParameterValue) → Except Error IcebergOptions :=
  takeOptions metadataNames fun _ => .ok ()

/-- The loop of `IcebergSnapshotsBind` -/
def snapshotsOptions : List (String × ParameterValue) → Except Error IcebergOptions :=
  takeOptions snapshotsNames fun _ => .ok ()

theorem parseOptions_eq (base : String → ParameterValue → Except Error Bool)
    (parameters : List (String × ParameterValue)) :
    parseOptions base parameters =
      takeOptions scanNames (fun kv => do let _ ← base kv.1 kv.2) parameters := by
  unfold parseOptions takeOptions
  congr 1
  funext options kv
  unfold parseOption
  cases takeOption scanNames (lower kv.1) kv.2 options with
  | error e => rfl
  | ok result =>
    cases result with
    | some options => rfl
    | none =>
      dsimp only
      cases base kv.1 kv.2 <;> rfl

/-! ### What the parameters say -/

/-- The named parameters of a call: their values have the types that are declared for them. -/
structure NamedParameters where
  map : CIMap ParameterValue
  typed : ∀ kv ∈ map.entries, ∀ declared ∈ addNamedParameters, lower kv.1 = declared.1 →
    kv.2.type = some declared.2

/-- The value of a parameter that is taken. -/
def taken (names : List String) (parameters : List (String × ParameterValue)) (name : String) :
    Option ParameterValue :=
  if name ∈ names then NormMap.findList lower name parameters else none

/-- The options as the parameters say them. -/
def optionsOf (names : List String) (parameters : List (String × ParameterValue)) :
    IcebergOptions where
  allowMovedPaths := (taken names parameters "allow_moved_paths").elim false
    fun val => val.getBoolean.toOption.getD false
  metadataCompressionCodec := (taken names parameters "metadata_compression_codec").elim "none"
    fun val => val.getString.toOption.getD "none"
  skipSchemaInference := (taken names parameters "skip_schema_inference").elim false
    fun val => val.getBoolean.toOption.getD false
  tableVersion := (taken names parameters "version").elim unknownTableVersion
    fun val => val.getString.toOption.getD unknownTableVersion
  versionNameFormat := (taken names parameters "version_name_format").elim defaultTableVersionFormat
    fun val => val.getString.toOption.getD defaultTableVersionFormat
  snapshotSource :=
    if (taken names parameters "snapshot_from_id").isSome then .fromId
    else if (taken names parameters "snapshot_from_timestamp").isSome then .fromTimestamp
    else .latest
  snapshotId := (taken names parameters "snapshot_from_id").elim 0
    fun val => val.getUBigInt.toOption.getD 0
  snapshotTimestamp := (taken names parameters "snapshot_from_timestamp").elim 0
    fun val => val.getTimestamp.toOption.getD 0

/-- At most one of the parameters selects a snapshot. -/
def OneSnapshot (names : List String) (parameters : List (String × ParameterValue)) : Prop :=
  taken names parameters "snapshot_from_id" = none ∨
    taken names parameters "snapshot_from_timestamp" = none

theorem optionsOf_congr {names names' : List String}
    {parameters parameters' : List (String × ParameterValue)}
    (h : ∀ name ∈ scanNames, taken names parameters name = taken names' parameters' name) :
    optionsOf names parameters = optionsOf names' parameters' := by
  simp only [scanNames, List.forall_mem_cons] at h
  obtain ⟨hmoved, hcodec, hskip, hversion, hformat, hid, htime, -⟩ := h
  simp only [optionsOf, hmoved, hcodec, hskip, hversion, hformat, hid, htime]

theorem lower_scanNames : ∀ name ∈ scanNames, lower name = name := by decide

section Loop

variable {names : List String} {parameters : List (String × ParameterValue)}
  {kv : String × ParameterValue}

/-- One more parameter. -/
theorem taken_concat (names : List String) (hnew : ∀ x ∈ parameters, lower x.1 ≠ lower kv.1)
    (name : String) (hname : name ∈ scanNames) :
    taken names (parameters ++ [kv]) name =
      if lower kv.1 = name ∧ name ∈ names then some kv.2 else taken names parameters name := by
  unfold taken
  rw [NormMap.findList_concat_of_notMem hnew, lower_scanNames name hname]
  by_cases hmem : name ∈ names
  · simp [hmem]
  · simp [hmem]

/-- A parameter that has not been read has no value. -/
theorem taken_eq_none (names : List String) (hnew : ∀ x ∈ parameters, lower x.1 ≠ lower kv.1)
    {name : String} (hname : name ∈ scanNames) (h : lower kv.1 = name) :
    taken names parameters name = none := by
  unfold taken
  split_ifs
  · rw [NormMap.findList_eq_none_iff, lower_scanNames name hname, ← h]
    exact hnew
  · rfl

/-- A parameter that is not taken does not count. -/
theorem taken_concat_of_notMem (hnew : ∀ x ∈ parameters, lower x.1 ≠ lower kv.1)
    (h : lower kv.1 ∉ names) {name : String} (hname : name ∈ scanNames) :
    taken names (parameters ++ [kv]) name = taken names parameters name := by
  rw [taken_concat names hnew name hname, if_neg]
  rintro ⟨rfl, hmem⟩
  exact h hmem

/-- No parameter selects a snapshot. -/
theorem snapshotSource_eq_latest_iff :
    (optionsOf names parameters).snapshotSource = .latest ↔
      taken names parameters "snapshot_from_id" = none ∧
        taken names parameters "snapshot_from_timestamp" = none := by
  unfold optionsOf
  cases taken names parameters "snapshot_from_id" with
  | some val => simp
  | none => cases taken names parameters "snapshot_from_timestamp" <;> simp

/-- The parameters before this one select a snapshot, and so does this one. -/
def Second (names : List String) (parameters : List (String × ParameterValue)) (name : String) :
    Prop :=
  name ∈ ["snapshot_from_id", "snapshot_from_timestamp"] ∧
    (optionsOf names parameters).snapshotSource ≠ .latest

/-- **One round**: a parameter that is taken is read, unless it is the second one to select a
snapshot. -/
theorem takeOption_spec (hnames : names ⊆ scanNames)
    (hnew : ∀ x ∈ parameters, lower x.1 ≠ lower kv.1)
    (htyped : ∀ declared ∈ addNamedParameters, lower kv.1 = declared.1 →
      kv.2.type = some declared.2) :
    lower kv.1 ∉ names ∧
        takeOption names (lower kv.1) kv.2 (optionsOf names parameters) = .ok none ∨
      lower kv.1 ∈ names ∧ Second names parameters (lower kv.1) ∧
        takeOption names (lower kv.1) kv.2 (optionsOf names parameters) = .error bothSnapshots ∨
      lower kv.1 ∈ names ∧ ¬ Second names parameters (lower kv.1) ∧
        takeOption names (lower kv.1) kv.2 (optionsOf names parameters) =
          .ok (some (optionsOf names (parameters ++ [kv]))) := by
  by_cases hmem : lower kv.1 ∈ names
  · refine Or.inr ?_
    have hread := taken_concat names hnew
    have hscan := hnames hmem
    obtain ⟨key, val⟩ := kv
    dsimp only at hnew htyped hmem hread hscan ⊢
    generalize lower key = loption at hnew htyped hmem hread hscan ⊢
    simp only [scanNames, List.mem_cons, List.not_mem_nil, or_false] at hread hscan
    -- the type of the value is the one declared for the name
    rcases hscan with rfl | rfl | rfl | rfl | rfl | rfl | rfl <;>
      simp [addNamedParameters] at htyped <;> cases val <;> simp [ParameterValue.type] at htyped
    case inr.inr.inr.inr.inr.inl.ubigint n =>
      by_cases hsource : (optionsOf names parameters).snapshotSource = .latest
      · refine Or.inr ⟨hmem, fun hsecond => hsecond.2 hsource, ?_⟩
        simp [takeOption, hmem, hsource, ParameterValue.getUBigInt]
        simp [optionsOf, hread, hmem]
        rfl
      · refine Or.inl ⟨hmem, ⟨by simp, hsource⟩, ?_⟩
        simp [takeOption, hmem, hsource]
        rfl
    case inr.inr.inr.inr.inr.inr.timestamp t =>
      by_cases hsource : (optionsOf names parameters).snapshotSource = .latest
      · refine Or.inr ⟨hmem, fun hsecond => hsecond.2 hsource, ?_⟩
        have hid := (snapshotSource_eq_latest_iff.1 hsource).1
        simp [takeOption, hmem, hsource, ParameterValue.getTimestamp]
        simp [optionsOf, hread, hmem, hid]
        rfl
      · refine Or.inl ⟨hmem, ⟨by simp, hsource⟩, ?_⟩
        simp [takeOption, hmem, hsource]
        rfl
    all_goals
      refine Or.inr ⟨hmem, by simp [Second], ?_⟩
      simp [takeOption, hmem, ParameterValue.getBoolean, ParameterValue.getString, optionsOf, hread]
      rfl
  · refine Or.inl ⟨hmem, ?_⟩
    rw [takeOption, if_pos hmem]
    rfl

/-- One more parameter leaves at most one snapshot selected, unless it is the second to select one. -/
theorem oneSnapshot_concat (hnew : ∀ x ∈ parameters, lower x.1 ≠ lower kv.1) :
    OneSnapshot names (parameters ++ [kv]) ↔ OneSnapshot names parameters ∧
      ¬ (lower kv.1 ∈ names ∧ Second names parameters (lower kv.1)) := by
  have hid := taken_concat names hnew "snapshot_from_id" (by decide)
  have htime := taken_concat names hnew "snapshot_from_timestamp" (by decide)
  rw [OneSnapshot, hid, htime, OneSnapshot, Second, ne_eq, snapshotSource_eq_latest_iff]
  by_cases h : lower kv.1 = "snapshot_from_id"
  · have hnone := taken_eq_none names hnew (by decide) h
    by_cases hmem : "snapshot_from_id" ∈ names <;> simp [h, hnone, hmem]
  · by_cases h' : lower kv.1 = "snapshot_from_timestamp"
    · have hnone := taken_eq_none names hnew (by decide) h'
      by_cases hmem : "snapshot_from_timestamp" ∈ names <;> simp [h', hnone, hmem]
    · simp [h, h']

/-- A parameter that is not taken leaves the options as they are. -/
theorem optionsOf_concat_of_notMem (hnew : ∀ x ∈ parameters, lower x.1 ≠ lower kv.1)
    (h : lower kv.1 ∉ names) : optionsOf names (parameters ++ [kv]) = optionsOf names parameters := by
  exact optionsOf_congr fun name hname => taken_concat_of_notMem hnew h hname

theorem foldlM_concat_eq_ok {α β : Type} {f : β → α → Except Error β} {init b : β} {as : List α}
    {a : α} : (as ++ [a]).foldlM f init = .ok b ↔
      ∃ b', as.foldlM f init = .ok b' ∧ f b' a = .ok b := by
  rw [List.foldlM_append, bind_eq_ok]
  simp only [List.foldlM_cons, List.foldlM_nil, bind_pure]

/-- **The loop** leaves the options that the parameters say, unless two of them select a snapshot or one
that is not taken is refused elsewhere. -/
theorem takeOptions_eq_ok_iff (hnames : names ⊆ scanNames)
    {others : String × ParameterValue → Except Error Unit}
    (hdistinct : (parameters.map fun kv => lower kv.1).Nodup)
    (htyped : ∀ kv ∈ parameters, ∀ declared ∈ addNamedParameters, lower kv.1 = declared.1 →
      kv.2.type = some declared.2) {options : IcebergOptions} :
    takeOptions names others parameters = .ok options ↔ OneSnapshot names parameters ∧
      (∀ kv ∈ parameters, lower kv.1 ∉ names → others kv = .ok ()) ∧
      options = optionsOf names parameters := by
  induction parameters using List.reverseRecOn generalizing options with
  | nil =>
    have hone : OneSnapshot names [] := Or.inl (by simp [taken, NormMap.findList])
    have hstart : optionsOf names [] = {} := by simp [optionsOf, taken, NormMap.findList]
    rw [hstart]
    exact ⟨fun h => ⟨hone, List.forall_mem_nil _, (Except.ok.inj h).symm⟩,
      fun h => by rw [h.2.2]; rfl⟩
  | append_singleton parameters kv ih =>
    rw [List.map_append, List.map_singleton, List.nodup_append] at hdistinct
    have hnew : ∀ x ∈ parameters, lower x.1 ≠ lower kv.1 := fun x hx =>
      hdistinct.2.2 _ (List.mem_map_of_mem hx) _ (List.mem_singleton_self _)
    rw [List.forall_mem_append, List.forall_mem_singleton] at htyped
    -- the parameters before this one leave what they say
    have hbefore := @ih hdistinct.1 htyped.1
    unfold takeOptions at hbefore ⊢
    simp only [foldlM_concat_eq_ok, hbefore, and_assoc, ↓existsAndEq, true_and,
      oneSnapshot_concat hnew, List.forall_mem_append, List.forall_mem_singleton]
    refine and_congr_right fun _ => ?_
    rcases takeOption_spec hnames hnew htyped.2 with
      ⟨hmem, htake⟩ | ⟨hmem, hsecond, htake⟩ | ⟨hmem, hsecond, htake⟩
    · rw [htake, optionsOf_concat_of_notMem hnew hmem]
      cases hkv : others kv with
      | error e => simp [hmem, bind, Except.bind]
      | ok u => simp [hmem, bind, Except.bind, pure, Except.pure, eq_comm]
    · rw [htake]
      simp [hmem, hsecond, bind, Except.bind]
    · rw [htake]
      simp [hmem, hsecond, bind, Except.bind, pure, Except.pure, eq_comm]

end Loop

/-! ### The three functions -/

/-- Where the metadata file is looked for is a matter of three of the options. -/
theorem getMetaDataPath_congr (ctx : ClientContext) (path : String) {options options' : IcebergOptions}
    (hversion : options.tableVersion = options'.tableVersion)
    (hformat : options.versionNameFormat = options'.versionNameFormat)
    (hcodec : options.metadataCompressionCodec = options'.metadataCompressionCodec) :
    IcebergSnapshot.getMetaDataPath ctx path options =
      IcebergSnapshot.getMetaDataPath ctx path options' := by
  have hsuffix : IcebergSnapshot.compressionSuffix options =
      IcebergSnapshot.compressionSuffix options' := by
    rw [IcebergSnapshot.compressionSuffix, hcodec, IcebergSnapshot.compressionSuffix]
  have hurl : ∀ metaPath version, IcebergSnapshot.generateMetaDataUrl ctx metaPath version options =
      IcebergSnapshot.generateMetaDataUrl ctx metaPath version options' := by
    intro metaPath version
    rw [IcebergSnapshot.generateMetaDataUrl, IcebergSnapshot.generateMetaDataUrl, hformat]
    induction split options'.versionNameFormat ',' with
    | nil => simp only [IcebergSnapshot.generateUrl, hformat, hcodec]
    | cons tryFormat formats ih => simp only [IcebergSnapshot.generateUrl, hsuffix, ih]
  have hguess : ∀ metaPath, IcebergSnapshot.guessTableVersion ctx metaPath options =
      IcebergSnapshot.guessTableVersion ctx metaPath options' := by
    intro metaPath
    rw [IcebergSnapshot.guessTableVersion, IcebergSnapshot.guessTableVersion, hformat]
    induction split options'.versionNameFormat ',' with
    | nil => simp only [IcebergSnapshot.guessVersion, hformat, hcodec]
    | cons tryFormat formats ih => simp only [IcebergSnapshot.guessVersion, hsuffix, ih]
  simp only [IcebergSnapshot.getMetaDataPath, hversion, hurl, hguess]

section Calls

variable {base : String → ParameterValue → Except Error Bool}

theorem taken_eq_find? {names : List String} (m : CIMap ParameterValue) {name : String}
    (h : name ∈ names) : taken names m.entries name = m.find? name := if_pos h

/-- **`ParseOption`** leaves the options that the parameters say, in whatever order the hash map has
them; it throws where a snapshot is selected twice, and where the base class does. -/
theorem parseOptions_eq_ok_iff (ps : NamedParameters)
    {parameters : List (String × ParameterValue)} (hperm : parameters.Perm ps.map.entries)
    {options : IcebergOptions} :
    parseOptions base parameters = .ok options ↔
      (ps.map.find? "snapshot_from_id" = none ∨ ps.map.find? "snapshot_from_timestamp" = none) ∧
      (∀ kv ∈ ps.map.entries, lower kv.1 ∉ scanNames → (base kv.1 kv.2).isOk) ∧
      options = optionsOf scanNames ps.map.entries := by
  have hdistinct : (parameters.map fun kv => lower kv.1).Nodup :=
    (hperm.map _).nodup_iff.2 ps.map.distinct
  have hsame : ∀ name ∈ scanNames, taken scanNames parameters name =
      taken scanNames ps.map.entries name := by
    intro name hname
    have hfind : (⟨parameters, hdistinct⟩ : CIMap ParameterValue).find? name = ps.map.find? name :=
      NormMap.find?_perm hperm name
    rw [taken_eq_find? ps.map hname, ← hfind]
    exact if_pos hname
  have hone : OneSnapshot scanNames parameters ↔
      ps.map.find? "snapshot_from_id" = none ∨ ps.map.find? "snapshot_from_timestamp" = none := by
    rw [OneSnapshot, hsame _ (by decide), hsame _ (by decide), taken_eq_find? _ (by decide),
      taken_eq_find? _ (by decide)]
  rw [parseOptions_eq, takeOptions_eq_ok_iff (List.Subset.refl _) hdistinct
    (fun kv hkv => ps.typed kv (hperm.mem_iff.1 hkv)), hone, optionsOf_congr hsame]
  refine and_congr_right fun _ => and_congr_left fun _ => ?_
  have hbase : ∀ kv : String × ParameterValue,
      (do let _ ← base kv.1 kv.2 : Except Error Unit) = .ok () ↔ (base kv.1 kv.2).isOk := by
    intro kv
    cases base kv.1 kv.2 with
    | error e => exact iff_of_false (fun h => by cases h) (fun h => by cases h)
    | ok result => exact iff_of_true rfl rfl
  simp only [hbase, hperm.mem_iff]

/-- What `ParseOption` leaves when it throws nowhere. -/
theorem options_of_parseOptions (ps : NamedParameters) {options : IcebergOptions}
    (h : parseOptions base ps.map.entries = .ok options) :
    options = optionsOf scanNames ps.map.entries := by
  rw [parseOptions_eq] at h
  exact ((takeOptions_eq_ok_iff (List.Subset.refl _) ps.map.distinct ps.typed).1 h).2.2

/-- The functions that select no snapshot take any parameters. -/
theorem takeOptions_ok {names : List String} (hnames : names ⊆ metadataNames) (ps : NamedParameters) :
    takeOptions names (fun _ => .ok ()) ps.map.entries = .ok (optionsOf names ps.map.entries) := by
  have hid : "snapshot_from_id" ∉ names := fun h => absurd (hnames h) (by decide)
  refine (takeOptions_eq_ok_iff (List.Subset.trans hnames (by decide)) ps.map.distinct ps.typed).2
    ⟨Or.inl (if_neg hid), fun _ _ _ => rfl, rfl⟩

/-- The parameters are the same as far as a function takes them. -/
def Share (names : List String) (ps ps' : NamedParameters) : Prop :=
  ∀ name ∈ names, ps'.map.find? name = ps.map.find? name

theorem taken_share {names : List String} (hnames : names ⊆ scanNames) {ps ps' : NamedParameters}
    (h : Share names ps ps') (name : String) (hname : name ∈ names) :
    taken names ps'.map.entries name = taken scanNames ps.map.entries name := by
  rw [taken_eq_find? _ hname, taken_eq_find? _ (hnames hname)]
  exact h name hname

/-- `iceberg_metadata` takes the same options from the same parameters, but for the snapshot. -/
theorem metadataOptions_share {ps ps' : NamedParameters} (h : Share metadataNames ps ps') :
    metadataOptions ps'.map.entries = .ok { optionsOf scanNames ps.map.entries with
      snapshotSource := .latest, snapshotId := 0, snapshotTimestamp := 0 } := by
  have hsame := taken_share (by decide) h
  simp only [metadataNames, List.forall_mem_cons] at hsame
  obtain ⟨hmoved, hcodec, hskip, hversion, hformat, -⟩ := hsame
  have hid : taken metadataNames ps'.map.entries "snapshot_from_id" = none := if_neg (by decide)
  have htime : taken metadataNames ps'.map.entries "snapshot_from_timestamp" = none :=
    if_neg (by decide)
  rw [metadataOptions, takeOptions_ok (List.Subset.refl _)]
  simp only [optionsOf, metadataNames] at *
  simp only [hmoved, hcodec, hskip, hversion, hformat, hid, htime]
  rfl

/-- `iceberg_snapshots` takes those that say which file the metadata are in. -/
theorem snapshotsOptions_share {ps ps' : NamedParameters} (h : Share snapshotsNames ps ps') :
    snapshotsOptions ps'.map.entries = .ok { optionsOf scanNames ps.map.entries with
      allowMovedPaths := false, snapshotSource := .latest, snapshotId := 0,
      snapshotTimestamp := 0 } := by
  have hsame := taken_share (by decide) h
  simp only [snapshotsNames, List.forall_mem_cons] at hsame
  obtain ⟨hcodec, hversion, hformat, hskip, -⟩ := hsame
  have hnone : ∀ name ∉ snapshotsNames, taken snapshotsNames ps'.map.entries name = none :=
    fun name hname => if_neg hname
  rw [snapshotsOptions, takeOptions_ok (by decide)]
  simp only [optionsOf, hnone "allow_moved_paths" (by decide), hnone "snapshot_from_id" (by decide),
    hnone "snapshot_from_timestamp" (by decide)]
  simp only [snapshotsNames, hcodec, hskip, hversion, hformat]
  rfl

/-- The text of the metadata file of a table. -/
def metadataFile (ctx : ClientContext) (path : String) (options : IcebergOptions) :
    Except Error String := do
  let icebergMetaPath ← IcebergSnapshot.getMetaDataPath ctx path options
  IcebergSnapshot.readMetaData ctx icebergMetaPath options.metadataCompressionCodec

theorem metadataFile_congr (ctx : ClientContext) (path : String) {options options' : IcebergOptions}
    (hversion : options.tableVersion = options'.tableVersion)
    (hformat : options.versionNameFormat = options'.versionNameFormat)
    (hcodec : options.metadataCompressionCodec = options'.metadataCompressionCodec) :
    metadataFile ctx path options = metadataFile ctx path options' := by
  rw [metadataFile, getMetaDataPath_congr ctx path hversion hformat hcodec, hcodec, metadataFile]

/-- **One metadata file**: where `iceberg_scan` accepts its parameters, `iceberg_metadata` and
`iceberg_snapshots` accept those of them that they have, and all three read the same text or fail with
the same error. -/
theorem same_metadata_file (ctx : ClientContext) (path : String) {ps ps' ps'' : NamedParameters}
    (hmetadata : Share metadataNames ps ps') (hsnapshots : Share snapshotsNames ps ps'')
    {options : IcebergOptions} (hscan : parseOptions base ps.map.entries = .ok options) :
    ∃ options' options'', metadataOptions ps'.map.entries = .ok options' ∧
      snapshotsOptions ps''.map.entries = .ok options'' ∧
      metadataFile ctx path options' = metadataFile ctx path options ∧
      metadataFile ctx path options'' = metadataFile ctx path options := by
  obtain rfl := options_of_parseOptions ps hscan
  exact ⟨_, _, metadataOptions_share hmetadata, snapshotsOptions_share hsnapshots,
    metadataFile_congr ctx path rfl rfl rfl, metadataFile_congr ctx path rfl rfl rfl⟩

end Calls

/-! ### Two parameters -/

/-- A version and a snapshot. -/
def versionAndSnapshot : NamedParameters where
  map := ⟨[("version", .varchar "2"), ("Snapshot_From_Id", .ubigint 7)], by decide⟩
  typed := by decide

/-- The version alone. -/
def versionAlone : NamedParameters where
  map := ⟨[("VERSION", .varchar "2")], by decide⟩
  typed := by decide

theorem parseOptions_eq_ok_iff_two :
    let options : IcebergOptions := { tableVersion := "2", snapshotSource := .fromId, snapshotId := 7 }
    parseOptions (fun _ _ => .ok false) [("Snapshot_From_Id", .ubigint 7), ("version", .varchar "2")] =
      .ok options := by
  intro options
  refine (parseOptions_eq_ok_iff versionAndSnapshot (List.Perm.swap _ _ _)).2 ⟨Or.inr rfl, ?_, rfl⟩
  decide

theorem same_metadata_file_two :
    let ctx := (TableFiles.table [] fun _ => none).context
    let options : IcebergOptions := { tableVersion := "2", snapshotSource := .fromId, snapshotId := 7 }
    ∃ options' options'', metadataOptions versionAlone.map.entries = .ok options' ∧
      snapshotsOptions versionAlone.map.entries = .ok options'' ∧
      metadataFile ctx "v1.metadata.json" options' = metadataFile ctx "v1.metadata.json" options ∧
      metadataFile ctx "v1.metadata.json" options'' = metadataFile ctx "v1.metadata.json" options := by
  intro ctx options
  have hshare : Share metadataNames versionAndSnapshot versionAlone := by
    unfold Share
    decide
  have hnames : snapshotsNames ⊆ metadataNames := by decide
  have hshare' : Share snapshotsNames versionAndSnapshot versionAlone := fun name hname =>
    hshare name (hnames hname)
  have hscan : parseOptions (fun _ _ => .ok false) versionAndSnapshot.map.entries = .ok options := rfl
  exact same_metadata_file ctx "v1.metadata.json" hshare hshare' hscan

end DuckIceberg
