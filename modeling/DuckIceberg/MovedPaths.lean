import DuckIceberg.Lib.Search
import DuckIceberg.TableFiles

/-!
# The paths of a table that was moved

`GetFullPath` keeps of a recorded path what follows the last `/metadata/` in it, or the last `/data/`
when there is none, with the word itself.  That is the path below the root exactly when the root and
the path below it hide no other place to cut at (`relocates_iff`).
-/

namespace DuckIceberg

open Strings IcebergUtils

namespace MovedPaths

variable {ctx : ClientContext} {oldRoot newRoot s : String}

/-! ### Paths below the root -/

/-- The path of a file of a table, below its root. -/
def TablePath (s : String) : Prop := "metadata/".toList <+: s.toList ∨ "data/".toList <+: s.toList

/-- The path that is recorded for it. -/
def recorded (root s : String) : String := root ++ "/" ++ s

/-- The place to cut at is the end of the root: the last `/metadata/` for a path of `metadata`, and
for a path of `data` there is no `/metadata/`, and the last `/data/` is there. -/
def CutAtRoot (root s : String) : Prop :=
  ("metadata/".toList <+: s.toList ∧ ¬ "/metadata/".toList <:+: s.toList) ∨
    ("data/".toList <+: s.toList ∧ ¬ "/metadata/".toList <:+: (recorded root s).toList ∧
      ¬ "/data/".toList <:+: s.toList)

theorem toList_recorded (root s : String) :
    (recorded root s).toList = root.toList ++ '/' :: s.toList := by simp [recorded]

theorem substrFrom_recorded (root s : String) (i : ℕ) :
    substrFrom (recorded root s) (root.toList.length + i + 1) = substrFrom s i := by
  rw [substrFrom, toList_recorded, substrFrom]
  congr 1
  rw [List.drop_append, List.drop_eq_nil_of_le (by omega), List.nil_append,
    show root.toList.length + i + 1 - root.toList.length = i + 1 by omega, List.drop_succ_cons]

theorem substrFrom_recorded_root (root s : String) :
    substrFrom (recorded root s) (root.toList.length + 1) = s := by
  have h := substrFrom_recorded root s 0
  rw [Nat.add_zero] at h
  rw [h, substrFrom, List.drop_zero, String.ofList_toList]

/-- Cutting more off leaves another path. -/
theorem substrFrom_ne {i : ℕ} (hs : s.toList ≠ []) : substrFrom s (i + 1) ≠ s := by
  intro h
  have hlen := congrArg (List.length ∘ String.toList) h
  have hpos := List.length_pos_iff.2 hs
  simp only [Function.comp_apply, substrFrom, String.toList_ofList, List.length_drop] at hlen
  omega

/-- A path does not begin with both directories. -/
theorem not_prefix_both (h : "data/".toList <+: s.toList) : ¬ "metadata/".toList <+: s.toList := by
  rintro ⟨t, ht⟩
  obtain ⟨t', ht'⟩ := h
  rw [← ht'] at ht
  simp at ht

/-! ### Where the path is cut -/

/-- A path of `metadata` is cut at the last `/metadata/`. -/
theorem getFullPath_metadata (hs : "metadata/".toList <+: s.toList) :
    (¬ "/metadata/".toList <:+: s.toList ∧
        getFullPath ctx newRoot (recorded oldRoot s) = .ok (ctx.joinPath newRoot s)) ∨
      ("/metadata/".toList <:+: s.toList ∧ ∃ i, getFullPath ctx newRoot (recorded oldRoot s) =
        .ok (ctx.joinPath newRoot (substrFrom s (i + 1)))) := by
  have hpre : "/metadata/".toList <+: '/' :: s.toList := by
    obtain ⟨t, ht⟩ := hs
    exact ⟨t, by rw [← ht]; rfl⟩
  rcases rfindList_of_prefix hpre oldRoot.toList with ⟨hnot, hfound⟩ | ⟨i, hi, hfound⟩
  · refine Or.inl ⟨hnot, ?_⟩
    rw [getFullPath, rfind, toList_recorded, hfound]
    show Except.ok (ctx.joinPath newRoot (substrFrom _ (oldRoot.toList.length + 1))) = _
    rw [substrFrom_recorded_root]
  · have hin : "/metadata/".toList <:+: s.toList := by
      by_contra hnot
      rw [rfindList_eq_none_iff.2 hnot] at hi
      cases hi
    refine Or.inr ⟨hin, i, ?_⟩
    rw [getFullPath, rfind, toList_recorded, hfound]
    show Except.ok (ctx.joinPath newRoot (substrFrom _ (oldRoot.toList.length + (i + 1) + 1))) = _
    rw [substrFrom_recorded]

/-- A path of `data` is cut at a `/metadata/` if there is one, and at the last `/data/` otherwise. -/
theorem getFullPath_data (hs : "data/".toList <+: s.toList) :
    ("/metadata/".toList <:+: (recorded oldRoot s).toList ∧
        ∃ p, "metadata/".toList <+: p.toList ∧
          getFullPath ctx newRoot (recorded oldRoot s) = .ok (ctx.joinPath newRoot p)) ∨
      (¬ "/metadata/".toList <:+: (recorded oldRoot s).toList ∧ ¬ "/data/".toList <:+: s.toList ∧
        getFullPath ctx newRoot (recorded oldRoot s) = .ok (ctx.joinPath newRoot s)) ∨
      ("/data/".toList <:+: s.toList ∧ ∃ i, getFullPath ctx newRoot (recorded oldRoot s) =
        .ok (ctx.joinPath newRoot (substrFrom s (i + 1)))) := by
  cases hmeta : rfindList "/metadata/".toList (recorded oldRoot s).toList with
  | some found =>
    have hin : "/metadata/".toList <:+: (recorded oldRoot s).toList := by
      by_contra hnot
      rw [rfindList_eq_none_iff.2 hnot] at hmeta
      cases hmeta
    refine Or.inl ⟨hin, substrFrom (recorded oldRoot s) (found + 1), ?_, ?_⟩
    · -- the word that was found begins what is left
      obtain ⟨t, ht⟩ := prefix_of_rfindList hmeta
      refine ⟨t, ?_⟩
      rw [substrFrom, ← List.drop_drop, ← ht]
      exact String.toList_ofList.symm
    · rw [getFullPath, rfind, hmeta]
  | none =>
    have hnone := rfindList_eq_none_iff.1 hmeta
    have hpre : "/data/".toList <+: '/' :: s.toList := by
      obtain ⟨t, ht⟩ := hs
      exact ⟨t, by rw [← ht]; rfl⟩
    refine Or.inr ?_
    rcases rfindList_of_prefix hpre oldRoot.toList with ⟨hnot, hfound⟩ | ⟨i, hi, hfound⟩
    · refine Or.inl ⟨hnone, hnot, ?_⟩
      rw [getFullPath, rfind, hmeta, rfind, toList_recorded, hfound]
      show Except.ok (ctx.joinPath newRoot (substrFrom _ (oldRoot.toList.length + 1))) = _
      rw [substrFrom_recorded_root]
    · have hin : "/data/".toList <:+: s.toList := by
        by_contra hnot
        rw [rfindList_eq_none_iff.2 hnot] at hi
        cases hi
      refine Or.inr ⟨hin, i, ?_⟩
      rw [getFullPath, rfind, hmeta, rfind, toList_recorded, hfound]
      show Except.ok (ctx.joinPath newRoot (substrFrom _ (oldRoot.toList.length + (i + 1) + 1))) = _
      rw [substrFrom_recorded]

/-- A path that is cut at the end of the root is kept. -/
theorem getFullPath_of_cutAtRoot (h : CutAtRoot oldRoot s) :
    getFullPath ctx newRoot (recorded oldRoot s) = .ok (ctx.joinPath newRoot s) := by
  rcases h with ⟨hs, hnot⟩ | ⟨hs, hmeta, hnot⟩
  · rcases getFullPath_metadata hs with ⟨-, h⟩ | ⟨hin, -⟩
    · exact h
    · exact absurd hin hnot
  · rcases getFullPath_data hs with ⟨hin, -⟩ | ⟨-, -, h⟩ | ⟨hin, -⟩
    · exact absurd hin hmeta
    · exact h
    · exact absurd hin hnot

/-- And no other is. -/
theorem cutAtRoot_of_getFullPath (hjoin : Function.Injective (ctx.joinPath newRoot))
    (hs : TablePath s)
    (h : getFullPath ctx newRoot (recorded oldRoot s) = .ok (ctx.joinPath newRoot s)) :
    CutAtRoot oldRoot s := by
  have hne : s.toList ≠ [] := by
    rcases hs with ⟨t, ht⟩ | ⟨t, ht⟩
    all_goals
      rw [← ht]
      simp
  rcases hs with hs | hs
  · rcases getFullPath_metadata hs with ⟨hnot, -⟩ | ⟨-, i, hi⟩
    · exact Or.inl ⟨hs, hnot⟩
    · exact absurd (hjoin (Except.ok.inj (hi.symm.trans h))) (substrFrom_ne hne)
  · rcases getFullPath_data hs with ⟨-, p, hp, hi⟩ | ⟨hmeta, hnot, -⟩ | ⟨-, i, hi⟩
    · rw [hjoin (Except.ok.inj (hi.symm.trans h))] at hp
      exact absurd hp (not_prefix_both hs)
    · exact Or.inr ⟨hs, hmeta, hnot⟩
    · exact absurd (hjoin (Except.ok.inj (hi.symm.trans h))) (substrFrom_ne hne)

/-- A path is kept only in one of the two directories. -/
theorem tablePath_of_getFullPath (hjoin : Function.Injective (ctx.joinPath newRoot))
    (h : getFullPath ctx newRoot (recorded oldRoot s) = .ok (ctx.joinPath newRoot s)) :
    TablePath s := by
  unfold getFullPath at h
  cases hmeta : rfind (recorded oldRoot s) "/metadata/" with
  | some found =>
    obtain ⟨t, ht⟩ := prefix_of_rfindList hmeta
    rw [hmeta] at h
    have hs := hjoin (Except.ok.inj h)
    refine Or.inl ⟨t, ?_⟩
    rw [← hs, substrFrom, ← List.drop_drop, ← ht]
    exact String.toList_ofList.symm
  | none =>
    cases hdata : rfind (recorded oldRoot s) "/data/" with
    | some found =>
      obtain ⟨t, ht⟩ := prefix_of_rfindList hdata
      rw [hmeta] at h
      dsimp only at h
      rw [hdata] at h
      have hs := hjoin (Except.ok.inj h)
      refine Or.inr ⟨t, ?_⟩
      rw [← hs, substrFrom, ← List.drop_drop, ← ht]
      exact String.toList_ofList.symm
    | none =>
      rw [hmeta] at h
      dsimp only at h
      rw [hdata] at h
      cases h

/-! ### The files of a table -/

/-- The files of a table under the old root are those under the new one, and stay apart. -/
def Relocates (ctx : ClientContext) (oldRoot newRoot : String) (files : Set String) : Prop :=
  (∀ s ∈ files, getFullPath ctx newRoot (recorded oldRoot s) = .ok (ctx.joinPath newRoot s)) ∧
    Set.InjOn (fun s => getFullPath ctx newRoot (recorded oldRoot s)) files

/-- **Relocation keeps the paths below the root** of exactly the tables whose paths are all cut at the
end of the root. -/
theorem relocates_iff (hjoin : Function.Injective (ctx.joinPath newRoot)) {files : Set String}
    (hfiles : ∀ s ∈ files, TablePath s) :
    Relocates ctx oldRoot newRoot files ↔ ∀ s ∈ files, CutAtRoot oldRoot s := by
  constructor
  · rintro ⟨hkept, -⟩ s hs
    exact cutAtRoot_of_getFullPath hjoin (hfiles s hs) (hkept s hs)
  · intro hcut
    have hkept : ∀ s ∈ files, getFullPath ctx newRoot (recorded oldRoot s) =
        .ok (ctx.joinPath newRoot s) := fun s hs => getFullPath_of_cutAtRoot (hcut s hs)
    refine ⟨hkept, fun s hs s' hs' heq => ?_⟩
    dsimp only at heq
    rw [hkept s hs, hkept s' hs'] at heq
    exact hjoin (Except.ok.inj heq)

/-! ### A table with a partition -/

/-- The context of a session; its files do not matter. -/
def movedContext : ClientContext :=
  TableFiles.context ⟨"v1.metadata.json", TableFiles.oneSnapshot, [], noParquet⟩

theorem joinPath_injective (root : String) : Function.Injective (movedContext.joinPath root) := by
  intro s s' h
  change root ++ "/" ++ s = root ++ "/" ++ s' at h
  rw [← String.toList_inj] at h ⊢
  simpa using h

theorem relocates_partitions :
    Relocates movedContext "old/data/t" "new"
      {s | s = "metadata/snap-1.avro" ∨ s = "data/day=1/1.parquet"} := by
  refine (relocates_iff (joinPath_injective _) ?_).2 ?_
  · rintro s (rfl | rfl)
    · exact Or.inl (by decide)
    · exact Or.inr (by decide)
  · rintro s (rfl | rfl)
    · exact Or.inl (by decide +kernel)
    · exact Or.inr (by decide +kernel)

/-- A directory `data` below that of the table makes a file of it another one. -/
theorem not_relocates_data :
    getFullPath movedContext "new" (recorded "old" "data/a/data/1.parquet") =
        .ok "new/data/1.parquet" ∧
      getFullPath movedContext "new" (recorded "old" "data/1.parquet") = .ok "new/data/1.parquet" ∧
      ¬ Relocates movedContext "old" "new"
        {s | s = "data/a/data/1.parquet" ∨ s = "data/1.parquet"} := by
  have h : getFullPath movedContext "new" (recorded "old" "data/a/data/1.parquet") =
      .ok "new/data/1.parquet" := rfl
  have h' : getFullPath movedContext "new" (recorded "old" "data/1.parquet") =
      .ok "new/data/1.parquet" := rfl
  refine ⟨h, h', fun hmoved => ?_⟩
  have heq := hmoved.2 (Or.inl rfl) (Or.inr rfl) (h.trans h'.symm)
  exact absurd heq (by decide)

end MovedPaths

end DuckIceberg
