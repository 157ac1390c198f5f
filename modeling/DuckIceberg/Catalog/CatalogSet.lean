import DuckIceberg.Lib.Strings
import DuckIceberg.Types

/-!
# Catalog sets

`IRCCatalogSet`: the entries of a catalog or of a schema, in a map that ignores the case of names.
The virtual functions are parameters: what `LoadEntries` makes entries of, and what `FillEntry` does
with an entry that is looked up.

* `Loaded`: the set holds an entry for each of these names, under the name;
* `loadEntries_loaded`: it does so once it is loaded, if the names differ in more than their case;
* `execAll_loaded`: and it goes on to do so, whatever is looked up.
-/

namespace DuckIceberg

open Strings

/-- `CatalogEntry`, at its address, with the data of a class derived from it -/
structure CatalogEntry (δ : Type) where
  address : ℕ
  name : String
  data : δ

/-- `IRCCatalogSet`.  No two entries are ever made at the same address. -/
structure IRCCatalogSet (δ : Type) where
  entries : CIMap (CatalogEntry δ) := .empty
  nextAddress : ℕ := 0

namespace IRCCatalogSet

variable {δ σ : Type}

/-- `CreateEntry`, of an entry that was made for it.  The set keeps the entry it has under an equal
name, and the new one is destroyed; its address is returned in either case. -/
def createEntry (set : IRCCatalogSet δ) (name : String) (data : δ) :
    Except Error ℕ × IRCCatalogSet δ :=
  if name = "" then
    (.error ⟨.internal, "ICCatalogSet::CreateEntry called with empty name"⟩, set)
  else
    (.ok set.nextAddress,
      { entries := set.entries.insertNew name ⟨set.nextAddress, name, data⟩,
        nextAddress := set.nextAddress + 1 })

/-- The loop of `LoadEntries`.  To make an entry may throw. -/
def createEntries : IRCCatalogSet δ → List (Except Error (String × δ)) →
    Except Error Unit × IRCCatalogSet δ
  | set, [] => (.ok (), set)
  | set, .error e :: _ => (.error e, set)
  | set, .ok (name, data) :: listed =>
    match set.createEntry name data with
    | (.error e, set) => (.error e, set)
    | (.ok _, set) => createEntries set listed

/-- `LoadEntries`, when the server lists these entries -/
def loadEntries (set : IRCCatalogSet δ)
    (listed : Except Error (List (Except Error (String × δ)))) :
    Except Error Unit × IRCCatalogSet δ :=
  if set.entries.entries ≠ [] then (.ok (), set)
  else
    match listed with
    | .error e => (.error e, set)
    | .ok listed => createEntries set listed

/-- What `FillEntry` does: it throws, leaves the entry as it is, or makes a new one. -/
abbrev FillEntry (σ δ : Type) := σ → CatalogEntry δ → Except Error (Option (String × δ)) × σ

/-- `GetEntry` -/
def getEntry (listed : Except Error (List (Except Error (String × δ)))) (fillEntry : FillEntry σ δ)
    (state : σ) (set : IRCCatalogSet δ) (name : String) :
    Except Error (Option (CatalogEntry δ)) × σ × IRCCatalogSet δ :=
  match set.loadEntries listed with
  | (.error e, set) => (.error e, state, set)
  | (.ok _, set) =>
    match set.entries.find? name with
    | none => (.ok none, state, set)
    | some entry =>
      match fillEntry state entry with
      | (.error e, state) => (.error e, state, set)
      | (.ok none, state) => (.ok (some entry), state, set)
      | (.ok (some (newName, data)), state) =>
        let entry : CatalogEntry δ := ⟨set.nextAddress, newName, data⟩
        (.ok (some entry), state,
          { entries := set.entries.insert name entry, nextAddress := set.nextAddress + 1 })

/-- `Scan`, with the entries that its callback is called for -/
def scan (listed : Except Error (List (Except Error (String × δ)))) (set : IRCCatalogSet δ) :
    Except Error (List (CatalogEntry δ)) × IRCCatalogSet δ :=
  match set.loadEntries listed with
  | (.error e, set) => (.error e, set)
  | (.ok _, set) => (.ok (set.entries.entries.map Prod.snd), set)

/-! ### Sets that are loaded -/

/-- The set holds an entry for each of these names, in their order, and `R` says what its data may
be. -/
def Loaded (set : IRCCatalogSet δ) (names : List String) (R : String → δ → Prop) : Prop :=
  set.entries.entries.map Prod.fst = names ∧
    ∀ e ∈ set.entries.entries, e.2.name = e.1 ∧ R e.1 e.2.data

theorem loaded_empty (R : String → δ → Prop) : Loaded ({} : IRCCatalogSet δ) [] R :=
  ⟨rfl, List.forall_mem_nil _⟩

theorem Loaded.mono {set : IRCCatalogSet δ} {names : List String} {R R' : String → δ → Prop}
    (h : Loaded set names R) (hR : ∀ n d, R n d → R' n d) : Loaded set names R' :=
  ⟨h.1, fun e he => ⟨(h.2 e he).1, hR _ _ (h.2 e he).2⟩⟩

/-- The names of the entries. -/
theorem Loaded.names_eq {set : IRCCatalogSet δ} {names : List String} {R : String → δ → Prop}
    (h : Loaded set names R) :
    (set.entries.entries.map Prod.snd).map CatalogEntry.name = names := by
  rw [← h.1, List.map_map]
  exact List.map_congr_left fun e he => (h.2 e he).1

theorem Loaded.find {set : IRCCatalogSet δ} {names : List String} {R : String → δ → Prop}
    (h : Loaded set names R) {n : String} (hn : n ∈ names) :
    ∃ entry, set.entries.find? n = some entry ∧ entry.name = n ∧ R n entry.data := by
  rw [← h.1] at hn
  obtain ⟨e, he, rfl⟩ := List.mem_map.1 hn
  exact ⟨e.2, NormMap.find?_of_mem he rfl, (h.2 e he).1, (h.2 e he).2⟩

/-- A new name makes a new entry. -/
theorem Loaded.createEntry {set : IRCCatalogSet δ} {names : List String} {R : String → δ → Prop}
    (h : Loaded set names R) {n : String} {d : δ} (hne : n ≠ "")
    (hnew : ∀ n' ∈ names, ¬ ciEquals n' n) (hd : R n d) :
    ∃ set', set.createEntry n d = (.ok set.nextAddress, set') ∧ Loaded set' (names ++ [n]) R ∧
      (n, ⟨set.nextAddress, n, d⟩) ∈ set'.entries.entries := by
  have hfind : set.entries.find? n = none := by
    refine NormMap.find?_eq_none_iff.2 fun e he hlower => ?_
    exact hnew e.1 (h.1 ▸ List.mem_map_of_mem he) hlower
  have hentries := NormMap.entries_insertNew_of_none hfind
    (⟨set.nextAddress, n, d⟩ : CatalogEntry δ)
  refine ⟨_, if_neg hne, ⟨?_, ?_⟩, ?_⟩
  · rw [hentries, List.map_append, h.1]
    rfl
  · rw [hentries]
    intro e he
    rcases List.mem_append.1 he with he | he
    · exact h.2 e he
    · rw [List.mem_singleton.1 he]
      exact ⟨rfl, hd⟩
  · rw [hentries]
    exact List.mem_append_right _ List.mem_cons_self

/-- The entries that are made of names. -/
def entriesOf (make : String → δ) (names : List String) : List (Except Error (String × δ)) :=
  names.map fun n => .ok (n, make n)

/-- A name that is there makes none. -/
theorem Loaded.createEntry_old {set : IRCCatalogSet δ} {names : List String}
    {R : String → δ → Prop} (h : Loaded set names R) {n : String} (d : δ) (hne : n ≠ "")
    (hold : ∃ n' ∈ names, ciEquals n' n) :
    ∃ set', set.createEntry n d = (.ok set.nextAddress, set') ∧ Loaded set' names R := by
  obtain ⟨n', hn', hlower⟩ := hold
  obtain ⟨entry, hfind, -⟩ := h.find hn'
  rw [NormMap.find?_congr _ hlower] at hfind
  refine ⟨_, if_neg hne, ?_⟩
  rw [NormMap.insertNew_of_some hfind]
  exact h

theorem createEntries_loaded {set : IRCCatalogSet δ} (before : List String) {names : List String}
    {R : String → δ → Prop} {make : String → δ} (h : Loaded set (NormMap.firsts lower before) R)
    (hne : ∀ n ∈ names, n ≠ "") (hmake : ∀ n, R n (make n)) :
    ∃ set', createEntries set (entriesOf make names) = (.ok (), set') ∧
      Loaded set' (NormMap.firsts lower (before ++ names)) R := by
  induction names generalizing set before with
  | nil => exact ⟨set, rfl, by rwa [List.append_nil]⟩
  | cons n names ih =>
    obtain ⟨hn, hnames⟩ := List.forall_mem_cons.1 hne
    have hstep : ∃ set', set.createEntry n (make n) = (.ok set.nextAddress, set') ∧
        Loaded set' (NormMap.firsts lower (before ++ [n])) R := by
      rw [NormMap.firsts_concat]
      by_cases hold : ∃ n' ∈ NormMap.firsts lower before, lower n' = lower n
      · rw [if_pos hold]
        exact h.createEntry_old _ hn hold
      · rw [if_neg hold]
        have hnew : ∀ n' ∈ NormMap.firsts lower before, ¬ ciEquals n' n := fun n' hn' heq =>
          hold ⟨n', hn', heq⟩
        obtain ⟨set', hset', hloaded, -⟩ := h.createEntry hn hnew (hmake n)
        exact ⟨set', hset', hloaded⟩
    obtain ⟨set', hset', hloaded⟩ := hstep
    have hassoc : before ++ n :: names = before ++ [n] ++ names := by simp
    obtain ⟨set'', hset'', hloaded'⟩ := ih (before ++ [n]) hloaded hnames
    refine ⟨set'', ?_, by rwa [hassoc]⟩
    rw [entriesOf, List.map_cons, createEntries, hset']
    exact hset''

/-- **A set that is loaded** holds an entry for each name that equals none before it. -/
theorem loadEntries_loaded {names : List String} {R : String → δ → Prop} {make : String → δ}
    (hne : ∀ n ∈ names, n ≠ "") (hmake : ∀ n, R n (make n)) :
    ∃ set, loadEntries {} (.ok (entriesOf make names)) = (.ok (), set) ∧
      Loaded set (NormMap.firsts lower names) R := by
  have hempty : ¬ (({} : IRCCatalogSet δ).entries.entries ≠ []) := fun h => h rfl
  obtain ⟨set, hset, hloaded⟩ := createEntries_loaded [] (loaded_empty R) hne hmake
  refine ⟨set, ?_, hloaded⟩
  rw [loadEntries, if_neg hempty]
  exact hset

/-- A set that is loaded stays as it is. -/
theorem Loaded.loadEntries {set : IRCCatalogSet δ} {names : List String} {R : String → δ → Prop}
    (h : Loaded set (NormMap.firsts lower names) R) (make : String → δ) :
    set.loadEntries (.ok (entriesOf make names)) = (.ok (), set) := by
  by_cases hempty : set.entries.entries ≠ []
  · exact if_pos hempty
  · have hnil : set.entries.entries = [] := by simpa using hempty
    have hnames : names = [] := by
      refine List.eq_nil_iff_forall_not_mem.2 fun n hn => ?_
      obtain ⟨m, hm, -⟩ := NormMap.exists_mem_firsts lower hn
      rw [← h.1, hnil] at hm
      cases hm
    rw [IRCCatalogSet.loadEntries, if_neg hempty, hnames]
    rfl

/-! ### Lookups and scans -/

section Lookups

variable {set : IRCCatalogSet δ} {names : List String} {R R' : String → δ → Prop}
  {fillEntry : FillEntry σ δ} {state : σ}

/-- A lookup in a set that is loaded, whether or not it finds something. -/
theorem Loaded.getEntry_eq (h : Loaded set (NormMap.firsts lower names) R)
    (make : String → δ) (name : String) :
    getEntry (.ok (entriesOf make names)) fillEntry state set name =
      match set.entries.find? name with
      | none => (.ok none, state, set)
      | some entry =>
        match fillEntry state entry with
        | (.error e, state) => (.error e, state, set)
        | (.ok none, state) => (.ok (some entry), state, set)
        | (.ok (some (newName, data)), state) =>
          (.ok (some ⟨set.nextAddress, newName, data⟩), state,
            { entries := set.entries.insert name ⟨set.nextAddress, newName, data⟩,
              nextAddress := set.nextAddress + 1 }) := by
  rw [getEntry, h.loadEntries]

/-- A lookup leaves the set loaded, when `FillEntry` makes entries under the old name. -/
theorem Loaded.after_getEntry (h : Loaded set (NormMap.firsts lower names) R)
    (make : String → δ) (name : String)
    (hmono : ∀ n d, R n d → R' n d)
    (hfill : ∀ entry : CatalogEntry δ, ∀ n d, R entry.name entry.data →
      (fillEntry state entry).1 = Except.ok (some (n, d)) → n = entry.name ∧ R' n d) :
    Loaded (getEntry (.ok (entriesOf make names)) fillEntry state set name).2.2
      (NormMap.firsts lower names) R' := by
  rw [h.getEntry_eq make]
  cases hfind : set.entries.find? name with
  | none => exact h.mono hmono
  | some entry =>
    obtain ⟨e, he, hek, rfl⟩ := NormMap.mem_of_find? hfind
    obtain ⟨hname, hR⟩ := h.2 e he
    dsimp only
    rcases hrun : fillEntry state e.2 with ⟨error | _ | ⟨n, d⟩, state'⟩
    · exact h.mono hmono
    · exact h.mono hmono
    · obtain ⟨hn, hd⟩ := hfill e.2 n d (hname ▸ hR) (by rw [hrun])
      dsimp only
      have hentries := NormMap.entries_insert_of_some hfind
        (⟨set.nextAddress, n, d⟩ : CatalogEntry δ)
      constructor
      · rw [← h.1, hentries, List.map_map]
        refine List.map_congr_left fun x _ => ?_
        by_cases hx : lower x.1 = lower name
        · simp only [Function.comp_apply, if_pos hx]
        · simp only [Function.comp_apply, if_neg hx]
      · rw [hentries]
        intro x' hx'
        obtain ⟨x, hx, rfl⟩ := List.mem_map.1 hx'
        by_cases hxk : lower x.1 = lower name
        · -- this is the entry that was found
          have hxe : x = e := NormMap.eq_of_norm_eq hx he (hxk.trans hek.symm)
          rw [if_pos hxk, hxe, hn, hname]
          rw [hn, hname] at hd
          exact ⟨rfl, hd⟩
        · rw [if_neg hxk]
          exact ⟨(h.2 x hx).1, hmono _ _ (h.2 x hx).2⟩

/-- A lookup of a listed name finds the entry of the first name that equals it, as `FillEntry` leaves
it. -/
theorem Loaded.getEntry_listed (h : Loaded set (NormMap.firsts lower names) R)
    (fillEntry : FillEntry σ δ) (state : σ) (make : String → δ) {m n : String}
    (hm : m ∈ NormMap.firsts lower names) (heq : ciEquals m n) :
    ∃ entry : CatalogEntry δ, entry.name = m ∧ R m entry.data ∧
      (getEntry (.ok (entriesOf make names)) fillEntry state set n).1 =
        match (fillEntry state entry).1 with
        | .error e => .error e
        | .ok none => .ok (some entry)
        | .ok (some (newName, data)) => .ok (some ⟨set.nextAddress, newName, data⟩) := by
  obtain ⟨entry, hfind, hname, hR⟩ := h.find hm
  rw [NormMap.find?_congr _ heq] at hfind
  refine ⟨entry, hname, hR, ?_⟩
  rw [h.getEntry_eq make, hfind]
  dsimp only
  rcases fillEntry state entry with ⟨error | _ | ⟨n', d⟩, state'⟩ <;> rfl

/-- A scan visits the entries in turn. -/
theorem Loaded.scan_eq (h : Loaded set (NormMap.firsts lower names) R) (make : String → δ) :
    scan (.ok (entriesOf make names)) set = (.ok (set.entries.entries.map Prod.snd), set) := by
  rw [IRCCatalogSet.scan, h.loadEntries]

end Lookups

/-! ### Runs -/

/-- A call, with what the server goes by as it answers. -/
inductive Call (φ : Type)
  | getEntry (name : String) (answers : φ)
  | scan

namespace Call

variable {φ : Type}

/-- What the server goes by in this call. -/
def answers : Call φ → List φ
  | .getEntry _ a => [a]
  | .scan => []

end Call

variable {φ : Type} (listed : Except Error (List (Except Error (String × δ))))
  (fillEntry : φ → FillEntry σ δ)

/-- Execute a call. -/
def exec (s : σ × IRCCatalogSet δ) : Call φ → σ × IRCCatalogSet δ
  | .getEntry name answers => (getEntry listed (fillEntry answers) s.1 s.2 name).2
  | .scan => (s.1, (scan listed s.2).2)

/-- Execute calls. -/
def execAll (s : σ × IRCCatalogSet δ) (calls : List (Call φ)) : σ × IRCCatalogSet δ :=
  calls.foldl (exec listed fillEntry) s

/-- **Calls** leave the set loaded, with entries that `FillEntry` made for their names. -/
theorem execAll_loaded {s : σ × IRCCatalogSet δ} {names : List String} {make : String → δ}
    {R : List φ → String → δ → Prop} {I : σ → Prop}
    (h : Loaded s.2 (NormMap.firsts lower names) (R [])) (hI : I s.1)
    (hmono : ∀ as a n d, R as n d → R (as ++ a) n d)
    (hstate : ∀ a state entry, I state → I (fillEntry a state entry).2)
    (hfill : ∀ as a state, I state → ∀ entry : CatalogEntry δ, ∀ n d, R as entry.name entry.data →
      (fillEntry a state entry).1 = .ok (some (n, d)) → n = entry.name ∧ R (as ++ [a]) n d)
    (calls : List (Call φ)) :
    I (execAll (.ok (entriesOf make names)) fillEntry s calls).1 ∧
      Loaded (execAll (.ok (entriesOf make names)) fillEntry s calls).2
        (NormMap.firsts lower names) (R (calls.flatMap Call.answers)) := by
  induction calls using List.reverseRecOn with
  | nil => exact ⟨hI, h⟩
  | append_singleton calls call ih =>
    obtain ⟨hIs, hloaded⟩ := ih
    rw [execAll, List.foldl_concat, List.flatMap_append, List.flatMap_singleton]
    set t := calls.foldl (exec (.ok (entriesOf make names)) fillEntry) s with ht
    change I t.1 at hIs
    change Loaded t.2 _ _ at hloaded
    cases call with
    | scan =>
      rw [exec, hloaded.scan_eq]
      exact ⟨hIs, hloaded.mono fun n d hR => hmono _ _ n d hR⟩
    | getEntry name a =>
      constructor
      · rw [exec, hloaded.getEntry_eq]
        cases hfind : t.2.entries.find? name with
        | none => exact hIs
        | some entry =>
          have hnext := hstate a t.1 entry hIs
          dsimp only
          rcases hrun : fillEntry a t.1 entry with ⟨error | _ | ⟨n', d⟩, state'⟩
          all_goals
            rw [hrun] at hnext
            exact hnext
      · exact hloaded.after_getEntry make name (fun n d hR => hmono _ _ n d hR) (hfill _ a t.1 hIs)

/-! ### What is reachable -/

/-- **The listed names are reachable.**  Names that are equal up to case count as one, the one that is
listed first.  `fetches` is what is fetched for a name, where the server goes by these answers. -/
structure Reachable (fetches : φ → String → Except Error δ) (names : List String) (state : σ) :
    Prop where
  /-- The set holds one entry for each listed name. -/
  loaded : ∃ set, loadEntries {} listed = (.ok (), set) ∧
    (set.entries.entries.map fun e => e.2.name).Perm (NormMap.firsts lower names)
  /-- For a name that equals none before it, `CreateEntry` returns an entry of the set. -/
  created : ∀ entries, listed = .ok entries → ∀ pre n d post, entries = pre ++ .ok (n, d) :: post →
    (∀ m d', .ok (m, d') ∈ pre → ¬ ciEquals m n) →
    ∃ set, createEntries {} pre = (.ok (), set) ∧
      ∃ e ∈ (set.createEntry n d).2.entries.entries,
        (set.createEntry n d).1 = .ok e.2.address ∧ e.2.name = n
  /-- After any calls, a scan visits each listed name once. -/
  scanned : ∀ calls, ∃ entries,
    (scan listed (execAll listed fillEntry (state, (loadEntries {} listed).2) calls).2).1 =
        .ok entries ∧
      (entries.map CatalogEntry.name).Perm (NormMap.firsts lower names)
  /-- After any calls, a lookup of a listed name finds the entry of that name, with what was fetched
  for the name in one of the calls, or it throws what the fetch throws. -/
  found : ∀ calls, ∀ n ∈ names, ∀ answers, ∃ m ∈ NormMap.firsts lower names, ciEquals m n ∧
    match (getEntry listed (fillEntry answers)
      (execAll listed fillEntry (state, (loadEntries {} listed).2) calls).1
      (execAll listed fillEntry (state, (loadEntries {} listed).2) calls).2 n).1 with
    | .error e => fetches answers m = .error e
    | .ok found => ∃ entry, found = some entry ∧ entry.name = m ∧
        ∃ a ∈ calls.flatMap Call.answers ++ [answers], fetches a m = .ok entry.data

variable {listed fillEntry}

/-- What `FillEntry` does with an entry, after the calls with `as` and in one with `a`: it leaves what
was fetched before, or fetches it.  `R` is what holds of the data of the entries. -/
def Fills (fetches : φ → String → Except Error δ) (R : List φ → String → δ → Prop) (as : List φ)
    (a : φ) (entry : CatalogEntry δ) : Except Error (Option (String × δ)) → Prop
  | .error e => fetches a entry.name = .error e
  | .ok none => ∃ a' ∈ as ++ [a], fetches a' entry.name = .ok entry.data
  | .ok (some (n, d)) => n = entry.name ∧ R (as ++ [a]) n d ∧ fetches a n = .ok d

/-- **A set is reachable** if `FillEntry` leaves or makes entries that were fetched for their names. -/
theorem entries_reachable {fetches : φ → String → Except Error δ} {names : List String} {state : σ}
    {make : String → δ} {R : List φ → String → δ → Prop} {I : σ → Prop}
    (hne : ∀ n ∈ names, n ≠ "") (hmake : ∀ n, R [] n (make n)) (hI : I state)
    (hmono : ∀ as a n d, R as n d → R (as ++ a) n d)
    (hstate : ∀ a state entry, I state → I (fillEntry a state entry).2)
    (hfill : ∀ as a state, I state → ∀ entry : CatalogEntry δ, R as entry.name entry.data →
      Fills fetches R as a entry (fillEntry a state entry).1) :
    Reachable (.ok (entriesOf make names)) fillEntry fetches names state := by
  obtain ⟨set, hset, hloaded⟩ := loadEntries_loaded hne hmake
  have hrun : ∀ calls, I (execAll (.ok (entriesOf make names)) fillEntry (state, set) calls).1 ∧
      Loaded (execAll (.ok (entriesOf make names)) fillEntry (state, set) calls).2
        (NormMap.firsts lower names) (R (calls.flatMap Call.answers)) := by
    refine execAll_loaded fillEntry (s := (state, set)) hloaded hI hmono hstate ?_
    intro as a state hstate' entry n d hR hok
    have hfilled := hfill as a state hstate' entry hR
    rw [hok] at hfilled
    exact ⟨hfilled.1, hfilled.2.1⟩
  constructor
  · refine ⟨set, hset, ?_⟩
    rw [← hloaded.names_eq, List.map_map]
    exact List.Perm.refl _
  · intro entries hentries pre n d post heq hnew
    cases hentries
    obtain ⟨before, rest, rfl, hpre, hrest⟩ := List.map_eq_append_iff.1 heq
    obtain ⟨n', after, rfl, hn', -⟩ := List.map_eq_cons_iff.1 hrest
    cases hn'
    obtain ⟨hbefore, hafter⟩ := List.forall_mem_append.1 hne
    obtain ⟨set', hset', hloaded'⟩ := createEntries_loaded []
      (loaded_empty (R [])) hbefore hmake
    have hfresh : ∀ m ∈ NormMap.firsts lower before, ¬ ciEquals m n := fun m hm =>
      hnew m (make m) (hpre ▸ List.mem_map_of_mem (NormMap.mem_of_mem_firsts hm))
    obtain ⟨set'', hset'', hloaded'', hmem⟩ := hloaded'.createEntry
      (hafter n List.mem_cons_self) hfresh (hmake n)
    refine ⟨set', hpre ▸ hset', (n, ⟨set'.nextAddress, n, make n⟩), ?_, ?_, rfl⟩
    · rw [hset'']
      exact hmem
    · rw [hset'']
  · intro calls
    rw [hset, (hrun calls).2.scan_eq]
    refine ⟨_, rfl, ?_⟩
    rw [(hrun calls).2.names_eq]
  · intro calls n hn answers
    obtain ⟨hIs, hloaded'⟩ := hrun calls
    obtain ⟨m, hm, hmn⟩ := NormMap.exists_mem_firsts lower hn
    refine ⟨m, hm, hmn, ?_⟩
    rw [hset]
    obtain ⟨entry, hname, hR, hget⟩ := hloaded'.getEntry_listed (fillEntry answers)
      (execAll _ fillEntry (state, set) calls).1 make hm hmn
    rw [hget]
    have hfilled := hfill _ answers _ hIs entry (hname ▸ hR)
    rcases hres : (fillEntry answers (execAll _ fillEntry (state, set) calls).1 entry).1 with
      error | _ | ⟨n', d⟩
    · rw [hres, Fills, hname] at hfilled
      exact hfilled
    · rw [hres, Fills, hname] at hfilled
      exact ⟨entry, rfl, hname, hfilled⟩
    · rw [hres, Fills, hname] at hfilled
      obtain ⟨rfl, -, hfetched⟩ := hfilled
      exact ⟨_, rfl, rfl, answers, List.mem_append_right _ List.mem_cons_self, hfetched⟩

end IRCCatalogSet

end DuckIceberg
