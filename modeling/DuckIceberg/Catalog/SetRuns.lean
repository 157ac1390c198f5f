import DuckIceberg.Catalog.CatalogSet

/-!
# Runs of a catalog set

Lookups, scans and `ClearEntries` on a catalog set, where the server may list something else each
time.  `LoadEntries` does nothing on a set that has an entry, so what it leaves behind when it throws is
what later calls go by.

* `loadEntries_atomic_iff`: it leaves nothing, unless the empty name is listed behind others;
* `run_whole`: when that never happens, a set is empty or holds all that was listed once.
-/

namespace DuckIceberg

open Strings

namespace IRCCatalogSet

variable {δ σ φ : Type}

/-! ### Calls -/

/-- `ClearEntries` -/
def clearEntries (set : IRCCatalogSet δ) : IRCCatalogSet δ := { set with entries := .empty }

/-- A call, with the answer to the request for a listing, if there is one, and what the server goes by
otherwise. -/
inductive SetCall (φ : Type)
  | getEntry (name : String) (response : Except Error String) (answers : φ)
  | scan (response : Except Error String)
  | clearEntries

/-- The answer to the request for a listing. -/
def SetCall.response? : SetCall φ → Option (Except Error String)
  | .getEntry _ response _ => some response
  | .scan response => some response
  | .clearEntries => none

/-- What the server goes by in this call. -/
def SetCall.answers : SetCall φ → List φ
  | .getEntry _ _ a => [a]
  | _ => []

section Calls

variable (listed : Except Error String → Except Error (List (Except Error (String × δ))))
  (fillEntry : φ → FillEntry σ δ)

/-- The state after a call. -/
def perform (s : σ × IRCCatalogSet δ) : SetCall φ → σ × IRCCatalogSet δ
  | .getEntry name response answers =>
    (getEntry (listed response) (fillEntry answers) s.1 s.2 name).2
  | .scan response => (s.1, (scan (listed response) s.2).2)
  | .clearEntries => (s.1, s.2.clearEntries)

/-- The state after these calls. -/
def performAll (s : σ × IRCCatalogSet δ) (calls : List (SetCall φ)) : σ × IRCCatalogSet δ :=
  calls.foldl (perform listed fillEntry) s

theorem performAll_concat (s : σ × IRCCatalogSet δ) (calls : List (SetCall φ)) (call : SetCall φ) :
    performAll listed fillEntry s (calls ++ [call]) =
      perform listed fillEntry (performAll listed fillEntry s calls) call :=
  List.foldl_concat _ _ _ _

end Calls

/-! ### Loading -/

/-- Names are listed before the empty one. -/
def ListsEmptyLater (listing : Except Error (List String)) : Prop :=
  ∃ names, listing = .ok names ∧ "" ∈ names ∧ names.head? ≠ some ""

/-- The entries are those before the call, if it throws. -/
def LoadsAtomically (set : IRCCatalogSet δ)
    (listed : Except Error (List (Except Error (String × δ)))) : Prop :=
  ∀ e, (set.loadEntries listed).1 = .error e →
    (set.loadEntries listed).2.entries = set.entries

theorem loaded_of_nil {set : IRCCatalogSet δ} (h : set.entries.entries = [])
    (R : String → δ → Prop) : Loaded set [] R := by
  refine ⟨by rw [h]; rfl, ?_⟩
  rw [h]
  exact List.forall_mem_nil _

section Loading

variable {set : IRCCatalogSet δ} (make : String → δ) {names : List String}

theorem loadEntries_of_ne_nil (h : set.entries.entries ≠ [])
    (listed : Except Error (List (Except Error (String × δ)))) :
    set.loadEntries listed = (.ok (), set) := if_pos h

theorem loadEntries_of_nil (h : set.entries.entries = []) (names : List String) :
    set.loadEntries (.ok (entriesOf make names)) = createEntries set (entriesOf make names) := by
  rw [loadEntries, if_neg (not_not_intro h)]

/-- Names without the empty one are all loaded. -/
theorem loadEntries_whole (h : set.entries.entries = []) (hne : "" ∉ names)
    {R : String → δ → Prop} (hmake : ∀ n, R n (make n)) :
    ∃ set', set.loadEntries (.ok (entriesOf make names)) = (.ok (), set') ∧
      Loaded set' (NormMap.firsts lower names) R := by
  rw [loadEntries_of_nil make h]
  exact createEntries_loaded [] (loaded_of_nil h R) (fun n hn hempty => hne (hempty ▸ hn)) hmake

/-- Where the empty name is reached, what comes before it is there. -/
theorem createEntries_append {set' : IRCCatalogSet δ} {pre : List String}
    (h : createEntries set (entriesOf make pre) = (.ok (), set')) (post : List String) :
    createEntries set (entriesOf make (pre ++ "" :: post)) =
      (.error ⟨.internal, "ICCatalogSet::CreateEntry called with empty name"⟩, set') := by
  induction pre generalizing set with
  | nil =>
    cases h
    rfl
  | cons n pre ih =>
    rw [entriesOf, List.map_cons, createEntries] at h
    rw [entriesOf, List.cons_append, List.map_cons, createEntries]
    generalize set.createEntry n (make n) = created at h ⊢
    obtain ⟨e | address, set''⟩ := created
    · cases h
    · exact ih h

/-- A set without entries that is loaded stays empty, or holds all that is listed. -/
theorem loadEntries_orderly (h : set.entries.entries = []) {listing : Except Error (List String)}
    (horderly : ¬ ListsEmptyLater listing) :
    (∃ e, set.loadEntries (listing.map (entriesOf make)) = (.error e, set)) ∨
      ∃ names set', listing = .ok names ∧
        set.loadEntries (listing.map (entriesOf make)) = (.ok (), set') ∧
        Loaded set' (NormMap.firsts lower names) fun _ _ => True := by
  cases listing with
  | error e => exact Or.inl ⟨e, if_neg (not_not_intro h)⟩
  | ok names =>
    by_cases hmem : "" ∈ names
    · cases names with
      | nil => cases hmem
      | cons n rest =>
        have hn : n = "" := by
          by_contra hn
          exact horderly ⟨n :: rest, rfl, hmem, fun hhead => hn (Option.some.inj hhead)⟩
        subst hn
        have hstart : createEntries set (entriesOf make []) = (.ok (), set) := rfl
        have hfirst := createEntries_append make hstart rest
        rw [← loadEntries_of_nil make h] at hfirst
        exact Or.inl ⟨_, hfirst⟩
    · obtain ⟨set', hset', hloaded⟩ :=
        loadEntries_whole make h hmem (R := fun _ _ => True) fun _ => trivial
      exact Or.inr ⟨names, set', rfl, hset', hloaded⟩

/-- **Loading is atomic**, unless the set is empty and a name is listed before the empty one. -/
theorem loadEntries_atomic_iff {listing : Except Error (List String)} :
    LoadsAtomically set (listing.map (entriesOf make)) ↔
      ¬ (set.entries.entries = [] ∧ ListsEmptyLater listing) := by
  constructor
  · rintro h ⟨hnil, names, rfl, hmem, hhead⟩
    obtain ⟨pre, post, rfl, hpre⟩ := List.eq_append_cons_of_mem hmem
    obtain ⟨set', hset', hloaded⟩ :=
      loadEntries_whole make hnil hpre (R := fun _ _ => True) fun _ => trivial
    rw [loadEntries_of_nil make hnil] at hset'
    have hthrows := createEntries_append make hset' post
    rw [← loadEntries_of_nil make hnil] at hthrows
    have hsame := h _ (congrArg Prod.fst hthrows)
    have hafter : (set.loadEntries ((Except.ok (pre ++ "" :: post)).map (entriesOf make))).2 = set' :=
      congrArg Prod.snd hthrows
    rw [hafter] at hsame
    cases pre with
    | nil => exact hhead rfl
    | cons n pre =>
      obtain ⟨m, hm, -⟩ := NormMap.exists_mem_firsts lower (List.mem_cons_self (a := n) (l := pre))
      rw [← hloaded.1, hsame, hnil] at hm
      cases hm
  · intro h e hthrows
    by_cases hnil : set.entries.entries = []
    · rcases loadEntries_orderly make hnil fun hlists => h ⟨hnil, hlists⟩ with
        ⟨e', hload⟩ | ⟨names, set', -, hload, -⟩
      · rw [hload]
      · rw [hload] at hthrows
        cases hthrows
    · rw [loadEntries_of_ne_nil hnil] at hthrows
      cases hthrows

end Loading

/-! ### Runs -/

section Runs

variable {listed : Except Error String → Except Error (List (Except Error (String × δ)))}
  {fillEntry : φ → FillEntry σ δ} {names : Except Error String → Except Error (List String)}
  {make : String → δ}

/-- The answers to requests for a listing since the entries were cleared. -/
def sinceClear (calls : List (SetCall φ)) : List (Except Error String) :=
  calls.foldl (fun responses call =>
    match call.response? with
    | some response => responses ++ [response]
    | none => []) []

theorem sinceClear_concat (calls : List (SetCall φ)) (call : SetCall φ) :
    sinceClear (calls ++ [call]) =
      match call.response? with
      | some response => sinceClear calls ++ [response]
      | none => [] :=
  List.foldl_concat _ _ _ _

/-- The set has no entries, or one for each name of one of these answers. -/
def Whole (names : Except Error String → Except Error (List String))
    (responses : List (Except Error String)) (set : IRCCatalogSet δ) : Prop :=
  set.entries.entries = [] ∨ ∃ response ∈ responses, ∃ ns, names response = .ok ns ∧
    Loaded set (NormMap.firsts lower ns) fun _ _ => True

/-- A call that loads the set is not given names before the empty one. -/
def Orderly (names : Except Error String → Except Error (List String)) (set : IRCCatalogSet δ)
    (call : SetCall φ) : Prop :=
  ∀ response ∈ call.response?,
    ¬ (set.entries.entries = [] ∧ ListsEmptyLater (names response))

/-- What `FillEntry` makes has the name of what it was made for. -/
def KeepsNames (fillEntry : φ → FillEntry σ δ) : Prop :=
  ∀ a state (entry : CatalogEntry δ) n d,
    (fillEntry a state entry).1 = .ok (some (n, d)) → n = entry.name

/-- A call that loads a set leaves it empty, when it throws, or with all that is listed. -/
theorem Whole.loadEntries
    (hlisted : ∀ response, listed response = (names response).map (entriesOf make))
    {responses : List (Except Error String)} {set : IRCCatalogSet δ} (h : Whole names responses set)
    {response : Except Error String}
    (horderly : ¬ (set.entries.entries = [] ∧ ListsEmptyLater (names response))) :
    (∃ e, set.loadEntries (listed response) = (.error e, set) ∧ set.entries.entries = []) ∨
      ∃ set' ns, set.loadEntries (listed response) = (.ok (), set') ∧
        set'.loadEntries (listed response) = (.ok (), set') ∧
        (∃ r ∈ responses ++ [response], names r = .ok ns) ∧
        Loaded set' (NormMap.firsts lower ns) fun _ _ => True := by
  rw [hlisted]
  by_cases hnil : set.entries.entries = []
  · rcases loadEntries_orderly make hnil fun hlists => horderly ⟨hnil, hlists⟩ with
      ⟨e, hload⟩ | ⟨ns, set', hns, hload, hloaded⟩
    · exact Or.inl ⟨e, hload, hnil⟩
    · refine Or.inr ⟨set', ns, hload, ?_, ⟨response, by simp, hns⟩, hloaded⟩
      rw [hns]
      exact hloaded.loadEntries make
  · obtain ⟨r, hr, ns, hns, hloaded⟩ := h.resolve_left hnil
    exact Or.inr ⟨set, ns, loadEntries_of_ne_nil hnil _, loadEntries_of_ne_nil hnil _,
      ⟨r, List.mem_append_left _ hr, hns⟩, hloaded⟩

/-- What a call sees: when the set is not loaded, the call throws and leaves the set as it was, and
otherwise it sees all names of one of the answers. -/
def SeesWhole (listed : Except Error String → Except Error (List (Except Error (String × δ))))
    (fillEntry : φ → FillEntry σ δ) (names : Except Error String → Except Error (List String))
    (responses : List (Except Error String)) (s : σ × IRCCatalogSet δ) : SetCall φ → Prop
  | .getEntry name response answers =>
    (∀ e, (s.2.loadEntries (listed response)).1 = .error e →
      getEntry (listed response) (fillEntry answers) s.1 s.2 name = (.error e, s)) ∧
    ∀ found, (getEntry (listed response) (fillEntry answers) s.1 s.2 name).1 = .ok found →
      ∃ r ∈ responses ++ [response], ∃ ns, names r = .ok ns ∧
        (found.isSome ↔ ∃ n ∈ ns, ciEquals n name)
  | .scan response =>
    (∀ e, (scan (listed response) s.2).1 = .error e → (scan (listed response) s.2).2 = s.2) ∧
    ∀ entries, (scan (listed response) s.2).1 = .ok entries →
      ∃ r ∈ responses ++ [response], ∃ ns, names r = .ok ns ∧
        entries.map CatalogEntry.name = NormMap.firsts lower ns
  | .clearEntries => True

/-- A loaded set has an entry for a name exactly when one of the names equals it. -/
theorem Loaded.find_iff {set : IRCCatalogSet δ} {ns : List String} {R : String → δ → Prop}
    (h : Loaded set (NormMap.firsts lower ns) R) (name : String) :
    (set.entries.find? name).isSome ↔ ∃ n ∈ ns, ciEquals n name := by
  constructor
  · intro hsome
    obtain ⟨entry, hfind⟩ := Option.isSome_iff_exists.1 hsome
    obtain ⟨e, he, hlower, -⟩ := NormMap.mem_of_find? hfind
    have hfirst : e.1 ∈ NormMap.firsts lower ns := by
      rw [← h.1]
      exact List.mem_map_of_mem he
    exact ⟨e.1, NormMap.mem_of_mem_firsts hfirst, hlower⟩
  · rintro ⟨n, hn, heq⟩
    obtain ⟨m, hm, hmn⟩ := NormMap.exists_mem_firsts lower hn
    obtain ⟨entry, hfind, -⟩ := h.find hm
    rw [← NormMap.find?_congr _ (hmn.trans heq), hfind]
    rfl

/-- **One call** on a set that is whole sees all of it, and leaves it whole. -/
theorem Whole.perform
    (hlisted : ∀ response, listed response = (names response).map (entriesOf make))
    (hfill : KeepsNames fillEntry) {responses : List (Except Error String)}
    {s : σ × IRCCatalogSet δ} (h : Whole names responses s.2) {call : SetCall φ}
    (horderly : Orderly names s.2 call) :
    SeesWhole listed fillEntry names responses s call ∧
      Whole names
        (match call.response? with
          | some response => responses ++ [response]
          | none => [])
        (IRCCatalogSet.perform listed fillEntry s call).2 := by
  cases call with
  | clearEntries => exact ⟨trivial, Or.inl rfl⟩
  | scan response =>
    rcases h.loadEntries hlisted (horderly response rfl) with
      ⟨e, hload, hnil⟩ | ⟨set', ns, hload, -, ⟨r, hr, hns⟩, hloaded⟩
    · have hscan : scan (listed response) s.2 = (.error e, s.2) := by rw [scan, hload]
      refine ⟨⟨fun _ _ => by rw [hscan], fun entries hok => ?_⟩, ?_⟩
      · rw [hscan] at hok
        cases hok
      · rw [IRCCatalogSet.perform, hscan]
        exact Or.inl hnil
    · have hscan : scan (listed response) s.2 =
          (.ok (set'.entries.entries.map Prod.snd), set') := by rw [scan, hload]
      refine ⟨⟨fun e hthrows => ?_, fun entries hok => ⟨r, hr, ns, hns, ?_⟩⟩, ?_⟩
      · rw [hscan] at hthrows
        cases hthrows
      · rw [hscan] at hok
        cases hok
        exact hloaded.names_eq
      · rw [IRCCatalogSet.perform, hscan]
        exact Or.inr ⟨r, hr, ns, hns, hloaded⟩
  | getEntry name response answers =>
    rcases h.loadEntries hlisted (horderly response rfl) with
      ⟨e, hload, hnil⟩ | ⟨set', ns, hload, hload', ⟨r, hr, hns⟩, hloaded⟩
    · have hget : getEntry (listed response) (fillEntry answers) s.1 s.2 name = (.error e, s) := by
        rw [getEntry, hload]
      refine ⟨⟨fun e' hthrows => ?_, fun found hok => ?_⟩, ?_⟩
      · rw [hload] at hthrows
        cases hthrows
        exact hget
      · rw [hget] at hok
        cases hok
      · rw [IRCCatalogSet.perform, hget]
        exact Or.inl hnil
    · have hload'' := hloaded.loadEntries make
      have hget : getEntry (listed response) (fillEntry answers) s.1 s.2 name =
          getEntry (.ok (entriesOf make ns)) (fillEntry answers) s.1 set' name := by
        rw [getEntry, hload, getEntry, hload'']
      refine ⟨⟨fun e' hthrows => ?_, fun found hok => ⟨r, hr, ns, hns, ?_⟩⟩,
        Or.inr ⟨r, hr, ns, hns, ?_⟩⟩
      · rw [hload] at hthrows
        cases hthrows
      · rw [← hloaded.find_iff name]
        rw [hget, hloaded.getEntry_eq make name] at hok
        cases hfind : set'.entries.find? name with
        | none =>
          rw [hfind] at hok
          cases hok
          rfl
        | some entry =>
          rw [hfind] at hok
          dsimp only at hok
          rcases hrun : fillEntry answers s.1 entry with ⟨error | _ | ⟨n, d⟩, state'⟩
          all_goals
            rw [hrun] at hok
            cases hok
          all_goals exact iff_of_true rfl rfl
      · rw [IRCCatalogSet.perform, hget]
        exact hloaded.after_getEntry make name (fun _ _ _ => trivial)
          fun entry n d _ hok => ⟨hfill answers s.1 entry n d hok, trivial⟩

/-- Every call of a run that loads the set is orderly. -/
def AllOrderly (listed : Except Error String → Except Error (List (Except Error (String × δ))))
    (fillEntry : φ → FillEntry σ δ) (names : Except Error String → Except Error (List String))
    (s : σ × IRCCatalogSet δ) (calls : List (SetCall φ)) : Prop :=
  ∀ before call after, calls = before ++ call :: after →
    Orderly names (performAll listed fillEntry s before).2 call

/-- **A run** of orderly calls keeps the set whole. -/
theorem run_whole (hlisted : ∀ response, listed response = (names response).map (entriesOf make))
    (hfill : KeepsNames fillEntry) (state : σ) {calls : List (SetCall φ)}
    (h : AllOrderly listed fillEntry names (state, {}) calls) :
    Whole names (sinceClear calls) (performAll listed fillEntry (state, {}) calls).2 := by
  induction calls using List.reverseRecOn with
  | nil => exact Or.inl rfl
  | append_singleton calls call ih =>
    have hbefore : AllOrderly listed fillEntry names (state, {}) calls := by
      rintro before call' after rfl
      exact h before call' (after ++ [call]) (by simp)
    rw [performAll_concat, sinceClear_concat]
    exact ((ih hbefore).perform hlisted hfill (h calls call [] rfl)).2

/-- What every call of such a run sees. -/
theorem run_seesWhole
    (hlisted : ∀ response, listed response = (names response).map (entriesOf make))
    (hfill : KeepsNames fillEntry) (state : σ) {calls : List (SetCall φ)}
    (h : AllOrderly listed fillEntry names (state, {}) calls) {before after : List (SetCall φ)}
    {call : SetCall φ} (hcalls : calls = before ++ call :: after) :
    SeesWhole listed fillEntry names (sinceClear before)
      (performAll listed fillEntry (state, {}) before) call := by
  have hbefore : AllOrderly listed fillEntry names (state, {}) before := by
    rintro before' call' after' rfl
    exact h before' call' (after' ++ call :: after) (by simp [hcalls])
  exact ((run_whole hlisted hfill state hbefore).perform hlisted hfill (h before call after hcalls)).1

end Runs

end IRCCatalogSet

end DuckIceberg
