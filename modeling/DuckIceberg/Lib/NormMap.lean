import Mathlib.Tactic

/-!
# Maps that compare their keys through a normal form

`NormMap norm β` is a finite map in which two keys are the same key when `norm` sends them to the
same value, as in a hash map with its own key equality.  The first key inserted stays; inserting
under an equal key replaces the value.  All that is needed of the map is what lookups see:
`find?_insert` and `find?_update`.
-/

variable {κ ν β : Type*} [DecidableEq ν]

namespace NormMap

/-- Assign under `k`, in place when an equal key is present, at the end otherwise. -/
def insertList (norm : κ → ν) (k : κ) (v : β) : List (κ × β) → List (κ × β)
  | [] => [(k, v)]
  | e :: es => if norm e.1 = norm k then (e.1, v) :: es else e :: insertList norm k v es

/-- The value under `k`. -/
def findList (norm : κ → ν) (k : κ) : List (κ × β) → Option β
  | [] => none
  | e :: es => if norm e.1 = norm k then some e.2 else findList norm k es

theorem mem_keys_insertList {norm : κ → ν} {k : κ} {v : β} {es : List (κ × β)} {n : ν} :
    n ∈ (insertList norm k v es).map (fun e => norm e.1) ↔
      n = norm k ∨ n ∈ es.map (fun e => norm e.1) := by
  induction es with
  | nil => simp [insertList]
  | cons e es ih =>
    unfold insertList
    split_ifs with h
    · simp [h]
    · rw [List.map_cons, List.mem_cons, ih, List.map_cons, List.mem_cons]
      tauto

theorem nodup_insertList {norm : κ → ν} (k : κ) (v : β) {es : List (κ × β)}
    (h : (es.map fun e => norm e.1).Nodup) :
    ((insertList norm k v es).map fun e => norm e.1).Nodup := by
  induction es with
  | nil => simp [insertList]
  | cons e es ih =>
    rw [List.map_cons, List.nodup_cons] at h
    unfold insertList
    split_ifs with hk
    · exact List.nodup_cons.2 h
    · rw [List.map_cons, List.nodup_cons, mem_keys_insertList]
      exact ⟨by simp [hk, h.1], ih h.2⟩

/-- A key that is missing comes at the end. -/
theorem insertList_of_notMem {norm : κ → ν} {k : κ} (v : β) {es : List (κ × β)}
    (h : ∀ e ∈ es, norm e.1 ≠ norm k) : insertList norm k v es = es ++ [(k, v)] := by
  induction es with
  | nil => rfl
  | cons e es ih =>
    obtain ⟨he, hes⟩ := List.forall_mem_cons.1 h
    rw [insertList, if_neg he, ih hes, List.cons_append]

/-- A key that is there stays where it is. -/
theorem insertList_of_nodup {norm : κ → ν} {k : κ} (v : β) {es : List (κ × β)}
    (hnodup : (es.map fun e => norm e.1).Nodup) (h : ∃ e ∈ es, norm e.1 = norm k) :
    insertList norm k v es = es.map fun e => if norm e.1 = norm k then (e.1, v) else e := by
  induction es with
  | nil =>
    obtain ⟨e, he, -⟩ := h
    cases he
  | cons e es ih =>
    rw [List.map_cons, List.nodup_cons] at hnodup
    rw [insertList, List.map_cons]
    by_cases hk : norm e.1 = norm k
    · rw [if_pos hk, if_pos hk]
      have hothers : ∀ x ∈ es, (if norm x.1 = norm k then (x.1, v) else x) = x := by
        intro x hx
        refine if_neg fun hxk => hnodup.1 ?_
        rw [hk, ← hxk]
        exact List.mem_map_of_mem hx
      rw [List.map_congr_left hothers, List.map_id']
    · rw [if_neg hk, if_neg hk]
      obtain ⟨x, hx, hxk⟩ := h
      rcases List.mem_cons.1 hx with rfl | hx
      · exact absurd hxk hk
      · rw [ih hnodup.2 ⟨x, hx, hxk⟩]

theorem findList_eq_none_iff {norm : κ → ν} {k : κ} {es : List (κ × β)} :
    findList norm k es = none ↔ ∀ e ∈ es, norm e.1 ≠ norm k := by
  induction es with
  | nil => exact iff_of_true rfl (List.forall_mem_nil _)
  | cons e es ih =>
    rw [List.forall_mem_cons, findList]
    by_cases h : norm e.1 = norm k
    · simp [h]
    · rw [if_neg h, ih]
      exact (and_iff_right h).symm

theorem mem_of_findList {norm : κ → ν} {k : κ} {v : β} {es : List (κ × β)}
    (h : findList norm k es = some v) : ∃ e ∈ es, norm e.1 = norm k ∧ e.2 = v := by
  induction es with
  | nil => cases h
  | cons e es ih =>
    rw [findList] at h
    by_cases hk : norm e.1 = norm k
    · rw [if_pos hk] at h
      exact ⟨e, List.mem_cons_self, hk, Option.some.inj h⟩
    · rw [if_neg hk] at h
      obtain ⟨x, hx, hxk⟩ := ih h
      exact ⟨x, List.mem_cons_of_mem _ hx, hxk⟩

/-- A key that comes last is found there. -/
theorem findList_concat_of_notMem {norm : κ → ν} {es : List (κ × β)} {e : κ × β}
    (h : ∀ x ∈ es, norm x.1 ≠ norm e.1) (k : κ) :
    findList norm k (es ++ [e]) = if norm e.1 = norm k then some e.2 else findList norm k es := by
  induction es with
  | nil => rfl
  | cons x es ih =>
    obtain ⟨hx, hes⟩ := List.forall_mem_cons.1 h
    rw [List.cons_append, findList, ih hes, findList]
    by_cases hk : norm e.1 = norm k
    · rw [if_pos hk, if_neg (by rw [← hk]; exact hx), if_pos hk]
    · rw [if_neg hk, if_neg hk]

/-- The keys that equal no key before them. -/
def firsts (norm : κ → ν) (ks : List κ) : List κ :=
  ks.foldl (fun kept k => if ∃ m ∈ kept, norm m = norm k then kept else kept ++ [k]) []

theorem firsts_concat (norm : κ → ν) (ks : List κ) (k : κ) :
    firsts norm (ks ++ [k]) =
      if ∃ m ∈ firsts norm ks, norm m = norm k then firsts norm ks else firsts norm ks ++ [k] :=
  List.foldl_concat _ _ _ _

theorem mem_of_mem_firsts {norm : κ → ν} {ks : List κ} {k : κ} (h : k ∈ firsts norm ks) :
    k ∈ ks := by
  induction ks using List.reverseRecOn with
  | nil => exact h
  | append_singleton ks k' ih =>
    rw [firsts_concat] at h
    split_ifs at h with hold
    · exact List.mem_append_left _ (ih h)
    · rcases List.mem_append.1 h with h | h
      · exact List.mem_append_left _ (ih h)
      · exact List.mem_append_right _ h

/-- Every key equals one of them. -/
theorem exists_mem_firsts (norm : κ → ν) {ks : List κ} {k : κ} (h : k ∈ ks) :
    ∃ m ∈ firsts norm ks, norm m = norm k := by
  induction ks using List.reverseRecOn with
  | nil => cases h
  | append_singleton ks k' ih =>
    rw [firsts_concat]
    by_cases hold : ∃ m ∈ firsts norm ks, norm m = norm k'
    · rw [if_pos hold]
      rcases List.mem_append.1 h with h | h
      · exact ih h
      · rwa [List.mem_singleton.1 h]
    · rw [if_neg hold]
      rcases List.mem_append.1 h with h | h
      · obtain ⟨m, hm, hmk⟩ := ih h
        exact ⟨m, List.mem_append_left _ hm, hmk⟩
      · rw [List.mem_singleton.1 h]
        exact ⟨k', List.mem_append_right _ List.mem_cons_self, rfl⟩

/-- Keys of which no two are equal are kept. -/
theorem firsts_eq_self {norm : κ → ν} {ks : List κ}
    (h : ks.Pairwise fun a b => norm a ≠ norm b) : firsts norm ks = ks := by
  induction ks using List.reverseRecOn with
  | nil => rfl
  | append_singleton ks k ih =>
    obtain ⟨hks, -, hk⟩ := List.pairwise_append.1 h
    rw [firsts_concat, ih hks]
    exact if_neg fun ⟨m, hm, hmk⟩ => hk m hm k List.mem_cons_self hmk

theorem findList_insertList (norm : κ → ν) (k k' : κ) (v : β) (es : List (κ × β)) :
    findList norm k' (insertList norm k v es) =
      if norm k = norm k' then some v else findList norm k' es := by
  induction es with
  | nil => simp [insertList, findList]
  | cons e es ih =>
    unfold insertList
    split_ifs with h h' h'
    · simp [findList, h, h']
    · simp [findList, h, h']
    · have : norm e.1 ≠ norm k' := by rw [← h']; exact h
      rw [findList, if_neg this, ih, if_pos h']
    · simp only [findList]
      rw [ih, if_neg h']

end NormMap

/-- A finite map whose keys are compared through `norm`. -/
structure NormMap (norm : κ → ν) (β : Type*) where
  entries : List (κ × β)
  distinct : (entries.map fun e => norm e.1).Nodup

namespace NormMap

variable {norm : κ → ν}

/-- The map without keys. -/
def empty : NormMap norm β := ⟨[], List.nodup_nil⟩

/-- The value under a key equal to `k`. -/
def find? (m : NormMap norm β) (k : κ) : Option β := findList norm k m.entries

/-- `m[k] = v` -/
def insert (m : NormMap norm β) (k : κ) (v : β) : NormMap norm β :=
  ⟨insertList norm k v m.entries, nodup_insertList k v m.distinct⟩

/-- Apply `f` to the value under `k`, which is created as `dflt` when it is missing. -/
def update (m : NormMap norm β) (k : κ) (dflt : β) (f : β → β) : NormMap norm β :=
  m.insert k (f ((m.find? k).getD dflt))

@[simp] theorem find?_empty (k : κ) : (empty : NormMap norm β).find? k = none := rfl

theorem find?_insert (m : NormMap norm β) (k k' : κ) (v : β) :
    (m.insert k v).find? k' = if norm k = norm k' then some v else m.find? k' :=
  findList_insertList norm k k' v m.entries

theorem find?_congr (m : NormMap norm β) {k k' : κ} (h : norm k = norm k') :
    m.find? k = m.find? k' := by
  unfold find?
  induction m.entries with
  | nil => rfl
  | cons e es ih => simp only [findList, h, ih]

theorem find?_update (m : NormMap norm β) (k k' : κ) (dflt : β) (f : β → β) :
    (m.update k dflt f).find? k' =
      if norm k = norm k' then some (f ((m.find? k').getD dflt)) else m.find? k' := by
  unfold update
  rw [find?_insert]
  split_ifs with h
  · rw [m.find?_congr h]
  · rfl

/-- `insert`, which does nothing when a key equal to `k` is there -/
def insertNew (m : NormMap norm β) (k : κ) (v : β) : NormMap norm β :=
  if (m.find? k).isSome then m else m.insert k v

theorem find?_insertNew (m : NormMap norm β) (k k' : κ) (v : β) :
    (m.insertNew k v).find? k' =
      (m.find? k').or (if norm k = norm k' then some v else none) := by
  unfold insertNew
  by_cases hk : norm k = norm k'
  · rw [find?_congr m hk, if_pos hk]
    cases hfind : m.find? k' with
    | none =>
      show (m.insert k v).find? k' = some v
      rw [find?_insert, if_pos hk]
    | some w => exact hfind
  · rw [if_neg hk, Option.or_none]
    split_ifs
    · rfl
    · rw [find?_insert, if_neg hk]

theorem find?_eq_none_iff {m : NormMap norm β} {k : κ} :
    m.find? k = none ↔ ∀ e ∈ m.entries, norm e.1 ≠ norm k :=
  findList_eq_none_iff

theorem mem_of_find? {m : NormMap norm β} {k : κ} {v : β} (h : m.find? k = some v) :
    ∃ e ∈ m.entries, norm e.1 = norm k ∧ e.2 = v :=
  mem_of_findList h

omit [DecidableEq ν] in
/-- Two entries under equal keys are the same. -/
theorem eq_of_norm_eq {m : NormMap norm β} {e e' : κ × β} (he : e ∈ m.entries)
    (he' : e' ∈ m.entries) (h : norm e.1 = norm e'.1) : e = e' :=
  List.inj_on_of_nodup_map m.distinct he he' h

theorem find?_of_mem {m : NormMap norm β} {e : κ × β} (he : e ∈ m.entries) {k : κ}
    (hk : norm e.1 = norm k) : m.find? k = some e.2 := by
  cases hfind : m.find? k with
  | none => exact absurd hk (find?_eq_none_iff.1 hfind e he)
  | some v =>
    obtain ⟨x, hx, hxk, rfl⟩ := mem_of_find? hfind
    rw [eq_of_norm_eq hx he (hxk.trans hk.symm)]

/-- What a map has does not depend on the order of its entries. -/
theorem find?_perm {m m' : NormMap norm β} (h : m.entries.Perm m'.entries) (k : κ) :
    m.find? k = m'.find? k := by
  cases hfind : m'.find? k with
  | none =>
    rw [find?_eq_none_iff] at hfind ⊢
    exact fun e he => hfind e (h.mem_iff.1 he)
  | some v =>
    obtain ⟨e, he, hek, rfl⟩ := mem_of_find? hfind
    exact find?_of_mem (h.mem_iff.2 he) hek

theorem entries_insertNew_of_none {m : NormMap norm β} {k : κ} (h : m.find? k = none) (v : β) :
    (m.insertNew k v).entries = m.entries ++ [(k, v)] := by
  rw [insertNew, h]
  exact insertList_of_notMem v (find?_eq_none_iff.1 h)

theorem insertNew_of_some {m : NormMap norm β} {k : κ} {v : β} (h : m.find? k = some v) (v' : β) :
    m.insertNew k v' = m := by
  rw [insertNew, h]
  rfl

theorem entries_insert_of_some {m : NormMap norm β} {k : κ} {v : β} (h : m.find? k = some v)
    (v' : β) : (m.insert k v').entries =
      m.entries.map fun e => if norm e.1 = norm k then (e.1, v') else e := by
  obtain ⟨e, he, hek, -⟩ := mem_of_find? h
  exact insertList_of_nodup v' m.distinct ⟨e, he, hek⟩

theorem insertList_insertList {k : κ} {v v' : β} (es : List (κ × β)) :
    insertList norm k v (insertList norm k v' es) = insertList norm k v es := by
  induction es with
  | nil => simp [insertList]
  | cons e es ih =>
    by_cases h : norm e.1 = norm k
    · rw [insertList, if_pos h, insertList, if_pos h, insertList, if_pos h]
    · rw [insertList, if_neg h, insertList, if_neg h, ih, insertList, if_neg h]

/-- Only the last assignment under a key counts. -/
theorem insert_insert (m : NormMap norm β) (k : κ) (v v' : β) :
    (m.insert k v').insert k v = m.insert k v := by
  unfold insert
  congr 1
  exact insertList_insertList m.entries

/-- An update of what was created before is an update that creates it. -/
theorem update_update (m : NormMap norm β) (k : κ) (dflt : β) (f g : β → β) :
    (m.update k dflt f).update k dflt g = m.update k dflt (g ∘ f) := by
  have hfind : (m.update k dflt f).find? k = some (f ((m.find? k).getD dflt)) := by
    rw [find?_update, if_pos rfl]
  rw [update, hfind, update, insert_insert, update]
  rfl

/-- Assign one after the other. -/
def insertAll (m : NormMap norm β) (es : List (κ × β)) : NormMap norm β :=
  es.foldl (fun m e => m.insert e.1 e.2) m

/-- The value under a key that is not assigned to stays. -/
theorem find?_insertAll_of_ne (m : NormMap norm β) {es : List (κ × β)} {k : κ}
    (h : ∀ e ∈ es, norm e.1 ≠ norm k) : (m.insertAll es).find? k = m.find? k := by
  induction es generalizing m with
  | nil => rfl
  | cons e es ih =>
    obtain ⟨he, hes⟩ := List.forall_mem_cons.1 h
    rw [insertAll, List.foldl_cons]
    exact (ih (m.insert e.1 e.2) hes).trans (by rw [find?_insert, if_neg he])

theorem insertAll_concat (m : NormMap norm β) (es : List (κ × β)) (e : κ × β) :
    m.insertAll (es ++ [e]) = (m.insertAll es).insert e.1 e.2 :=
  List.foldl_concat _ _ _ _

/-- What is assigned to a key last is its value. -/
theorem find?_insertAll (m : NormMap norm β) (es : List (κ × β)) (k : κ) :
    (m.insertAll es).find? k =
      ((es.reverse.find? fun e => norm e.1 = norm k).map Prod.snd).or (m.find? k) := by
  induction es using List.reverseRecOn with
  | nil => rfl
  | append_singleton es e ih =>
    rw [insertAll_concat, find?_insert, List.reverse_concat, List.find?_cons]
    by_cases he : norm e.1 = norm k
    · simp [he]
    · simp [he, ih]

/-- It is where the list can be cut. -/
theorem find?_insertAll_cases (m : NormMap norm β) (es : List (κ × β)) (k : κ) :
    (∀ e ∈ es, norm e.1 ≠ norm k) ∧ (m.insertAll es).find? k = m.find? k ∨
      ∃ pre e post, es = pre ++ e :: post ∧ norm e.1 = norm k ∧
        (∀ e' ∈ post, norm e'.1 ≠ norm k) ∧ (m.insertAll es).find? k = some e.2 := by
  induction es using List.reverseRecOn with
  | nil => exact Or.inl ⟨nofun, rfl⟩
  | append_singleton es e ih =>
    rw [insertAll_concat, find?_insert]
    by_cases he : norm e.1 = norm k
    · rw [if_pos he]
      exact Or.inr ⟨es, e, [], rfl, he, nofun, rfl⟩
    · rw [if_neg he]
      rcases ih with ⟨hes, hfind⟩ | ⟨pre, e', post, rfl, he', hpost, hfind⟩
      · refine Or.inl ⟨fun x hx => ?_, hfind⟩
        rcases List.mem_append.1 hx with hx | hx
        · exact hes x hx
        · rwa [List.mem_singleton.1 hx]
      · refine Or.inr ⟨pre, e', post ++ [e], by simp, he', fun x hx => ?_, hfind⟩
        rcases List.mem_append.1 hx with hx | hx
        · exact hpost x hx
        · rwa [List.mem_singleton.1 hx]

/-- When the keys differ, each has the value that is assigned to it. -/
theorem find?_insertAll_of_mem (m : NormMap norm β) {es : List (κ × β)}
    (hes : es.Pairwise fun e e' => norm e.1 ≠ norm e'.1) {e : κ × β} (he : e ∈ es) :
    (m.insertAll es).find? e.1 = some e.2 := by
  induction es generalizing m with
  | nil => cases he
  | cons e' es ih =>
    obtain ⟨hhead, htail⟩ := List.pairwise_cons.1 hes
    rw [insertAll, List.foldl_cons]
    rcases List.mem_cons.1 he with rfl | he
    · refine (find?_insertAll_of_ne (m.insert e.1 e.2) fun x hx => (hhead x hx).symm).trans ?_
      rw [find?_insert, if_pos rfl]
    · exact ih (m.insert e'.1 e'.2) htail he

end NormMap
