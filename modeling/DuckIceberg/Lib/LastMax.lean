import Mathlib.Tactic

/-!
# The last greatest element of a list

A loop that keeps the best element seen so far, and replaces it by one that is at least as good,
ends with the last of the greatest elements.
-/

namespace LastMax

variable {α : Type*} (f : α → ℕ)

/-- The loop, with the greatest value so far and its element. -/
def lastMaxFrom : List α → ℕ → Option α → Option α
  | [], _, best => best
  | x :: xs, m, best => if m ≤ f x then lastMaxFrom xs (f x) (some x) else lastMaxFrom xs m best

/-- The last of the greatest elements. -/
def lastMax (l : List α) : Option α := lastMaxFrom f l 0 none

variable {f}

/-- Once the greatest value has been seen, only its later occurrences replace it. -/
theorem lastMaxFrom_of_le {t : ℕ} {l : List α} (hl : ∀ x ∈ l, f x ≤ t) (best : Option α) :
    lastMaxFrom f l t best = ((l.filter (f · = t)).getLast?).or best := by
  induction l generalizing best with
  | nil => rfl
  | cons x xs ih =>
    have hxs : ∀ y ∈ xs, f y ≤ t := fun y hy => hl y (List.mem_cons_of_mem _ hy)
    have hx : f x ≤ t := hl x List.mem_cons_self
    by_cases heq : f x = t
    · rw [lastMaxFrom, if_pos heq.ge, heq, ih hxs, List.filter_cons_of_pos (by simpa using heq),
        List.getLast?_cons]
      cases (xs.filter (f · = t)).getLast? <;> rfl
    · rw [lastMaxFrom, if_neg (by omega), ih hxs, List.filter_cons_of_neg (by simpa using heq)]

/-- The loop finds the last element with the greatest value. -/
theorem lastMaxFrom_eq {t : ℕ} {l : List α} (hl : ∀ x ∈ l, f x ≤ t) (hmem : ∃ x ∈ l, f x = t)
    {m : ℕ} (hm : m ≤ t) (best : Option α) :
    lastMaxFrom f l m best = (l.filter (f · = t)).getLast? := by
  induction l generalizing m best with
  | nil => simp at hmem
  | cons x xs ih =>
    have hxs : ∀ y ∈ xs, f y ≤ t := fun y hy => hl y (List.mem_cons_of_mem _ hy)
    have hx : f x ≤ t := hl x List.mem_cons_self
    by_cases heq : f x = t
    · rw [lastMaxFrom, if_pos (by omega), heq, lastMaxFrom_of_le hxs,
        List.filter_cons_of_pos (by simpa using heq), List.getLast?_cons]
      cases (xs.filter (f · = t)).getLast? <;> rfl
    · have hmem' : ∃ y ∈ xs, f y = t := by
        obtain ⟨y, hy, hyt⟩ := hmem
        rcases List.mem_cons.1 hy with rfl | hy
        · exact absurd hyt heq
        · exact ⟨y, hy, hyt⟩
      rw [lastMaxFrom, List.filter_cons_of_neg (by simpa using heq)]
      split_ifs
      · exact ih hxs hmem' hx _
      · exact ih hxs hmem' hm _

theorem lastMax_eq {t : ℕ} {l : List α} (hl : ∀ x ∈ l, f x ≤ t) (hmem : ∃ x ∈ l, f x = t) :
    lastMax f l = (l.filter (f · = t)).getLast? :=
  lastMaxFrom_eq hl hmem (Nat.zero_le t) none

/-- A list that is not empty has a greatest value. -/
theorem exists_max {l : List α} (h : l ≠ []) : ∃ x ∈ l, ∀ y ∈ l, f y ≤ f x := by
  induction l with
  | nil => exact absurd rfl h
  | cons x xs ih =>
    by_cases hxs : xs = []
    · subst hxs
      exact ⟨x, List.mem_cons_self, by simp⟩
    · obtain ⟨y, hy, hmax⟩ := ih hxs
      by_cases hle : f x ≤ f y
      · refine ⟨y, List.mem_cons_of_mem _ hy, fun z hz => ?_⟩
        rcases List.mem_cons.1 hz with rfl | hz
        · exact hle
        · exact hmax z hz
      · refine ⟨x, List.mem_cons_self, fun z hz => ?_⟩
        rcases List.mem_cons.1 hz with rfl | hz
        · exact le_rfl
        · exact (hmax z hz).trans (by omega)

/-- Cutting off what lies above `t` leaves a value `t` that occurs the greatest. -/
theorem lastMax_filter_le {t : ℕ} {l : List α} (hmem : ∃ x ∈ l, f x = t) :
    lastMax f (l.filter (f · ≤ t)) = (l.filter (f · = t)).getLast? := by
  obtain ⟨x, hx, hxt⟩ := hmem
  rw [lastMax_eq (t := t) (fun y hy => by simpa using (List.mem_filter.1 hy).2)
    ⟨x, List.mem_filter.2 ⟨hx, by simp [hxt]⟩, hxt⟩, List.filter_filter]
  congr 1
  refine List.filter_congr fun y _ => ?_
  by_cases hy : f y = t <;> simp [hy]

/-- A list with an element of some kind is cut at the last one. -/
theorem exists_last_split {p : α → Prop} [DecidablePred p] {l : List α} (h : ∃ x ∈ l, p x) :
    ∃ pre x post, l = pre ++ x :: post ∧ p x ∧ ∀ y ∈ post, ¬ p y := by
  induction l with
  | nil => simp at h
  | cons x xs ih =>
    by_cases hxs : ∃ y ∈ xs, p y
    · obtain ⟨pre, y, post, hsplit, hy, hpost⟩ := ih hxs
      exact ⟨x :: pre, y, post, by rw [hsplit, List.cons_append], hy, hpost⟩
    · have hx : p x := by
        obtain ⟨y, hy, hpy⟩ := h
        rcases List.mem_cons.1 hy with rfl | hy
        · exact hpy
        · exact absurd ⟨y, hy, hpy⟩ hxs
      exact ⟨[], x, xs, rfl, hx, fun y hy hpy => hxs ⟨y, hy, hpy⟩⟩

/-- The last of the greatest elements is this one, or there are none. -/
def IsLastMax (f : α → ℕ) (l : List α) : Option α → Prop
  | none => l = []
  | some x => (∀ y ∈ l, f y ≤ f x) ∧ ∃ pre post, l = pre ++ x :: post ∧ ∀ y ∈ post, f y ≠ f x

/-- The loop finds it. -/
theorem isLastMax_lastMax (l : List α) : IsLastMax f l (lastMax f l) := by
  by_cases hl : l = []
  · subst hl
    rfl
  obtain ⟨x, hx, hmax⟩ := exists_max (f := f) hl
  rw [lastMax_eq hmax ⟨x, hx, rfl⟩]
  have hne : l.filter (f · = f x) ≠ [] := List.ne_nil_of_mem (List.mem_filter.2 ⟨hx, by simp⟩)
  rw [List.getLast?_eq_some_getLast hne]
  -- cut the list at the last element that has the greatest value
  obtain ⟨pre, y, post, hsplit, hy, hpost⟩ := exists_last_split (p := (f · = f x)) ⟨x, hx, rfl⟩
  have hfilter : l.filter (f · = f x) = pre.filter (f · = f x) ++ [y] := by
    have hnone : post.filter (f · = f x) = [] := by
      rw [List.filter_eq_nil_iff]
      intro z hz
      simpa using hpost z hz
    rw [hsplit, List.filter_append, List.filter_cons_of_pos (by simpa using hy), hnone]
  have hlast : (l.filter (f · = f x)).getLast hne = y := by
    simp only [hfilter, List.getLast_append_of_ne_nil, ne_eq, List.cons_ne_self, not_false_eq_true,
      List.getLast_singleton]
  rw [hlast]
  refine ⟨fun z hz => hy ▸ hmax z hz, pre, post, hsplit, fun z hz => ?_⟩
  rw [hy]
  exact hpost z hz

/-- A greater bound selects an element that is at least as great. -/
theorem IsLastMax.le {l l' : List α} (hsub : l ⊆ l') {x : α} {o : Option α}
    (h : IsLastMax f l (some x)) (h' : IsLastMax f l' o) : ∃ y, o = some y ∧ f x ≤ f y := by
  obtain ⟨-, pre, post, hl, -⟩ := h
  have hx : x ∈ l' := hsub (hl ▸ List.mem_append_right _ List.mem_cons_self)
  cases o with
  | none =>
    rw [show l' = [] from h'] at hx
    cases hx
  | some y => exact ⟨y, rfl, h'.1 x hx⟩

/-- There is only one. -/
theorem IsLastMax.eq_lastMax {l : List α} {o : Option α} (h : IsLastMax f l o) :
    lastMax f l = o := by
  cases o with
  | none =>
    rw [show l = [] from h]
    rfl
  | some x =>
    obtain ⟨hmax, pre, post, rfl, hpost⟩ := h
    have hnone : post.filter (f · = f x) = [] := by
      rw [List.filter_eq_nil_iff]
      intro y hy
      simpa using hpost y hy
    rw [lastMax_eq hmax ⟨x, by simp, rfl⟩, List.filter_append, List.filter_cons_of_pos (by simp),
      hnone, List.getLast?_concat]

section Related

variable {β : Type*} {g : β → ℕ}

/-- Lists with the same values have their last greatest elements in the same place. -/
theorem lastMaxFrom_forall₂ {R : α → β → Prop} (hR : ∀ x y, R x y → f x = g y) {l : List α}
    {l' : List β} (h : List.Forall₂ R l l') (m : ℕ) {o : Option α} {o' : Option β}
    (ho : Option.Rel R o o') : Option.Rel R (lastMaxFrom f l m o) (lastMaxFrom g l' m o') := by
  induction h generalizing m o o' with
  | nil => exact ho
  | @cons x y l l' hxy _ ih =>
    rw [lastMaxFrom, lastMaxFrom, hR x y hxy]
    split_ifs
    · exact ih _ (.some hxy)
    · exact ih _ ho

theorem lastMax_forall₂ {R : α → β → Prop} (hR : ∀ x y, R x y → f x = g y) {l : List α}
    {l' : List β} (h : List.Forall₂ R l l') : Option.Rel R (lastMax f l) (lastMax g l') :=
  lastMaxFrom_forall₂ hR h 0 .none

end Related

end LastMax
