import Mathlib.Tactic

/-!
# Cutting a text at its outer separators

A text with brackets is cut at the separators that no bracket encloses: a counter goes up at each
opening bracket and down at each closing one, and a separator counts while it is not positive.
Nothing makes the brackets match, so the counter may also be negative.

* `cut_cases`: the first piece, and the cut of what follows it;
* `cut_plain`: texts without a cut, which stay whole.
-/

namespace Cut

/-- The text goes on with the first of the pieces. -/
def glue {α : Type*} (s : List α) : List (List α) → List (List α)
  | [] => [s]
  | p :: ps => (s ++ p) :: ps

theorem glue_glue {α : Type*} (s t : List α) (ps : List (List α)) :
    glue s (glue t ps) = glue (s ++ t) ps := by
  cases ps with
  | nil => rfl
  | cons p ps => simp only [glue, List.append_assoc]

variable {α : Type*} [DecidableEq α] (opn cls sep : α)

/-- The counter after a character. -/
def step (d : ℤ) (c : α) : ℤ :=
  if c = opn then d + 1 else if c = cls then d - 1 else d

/-- The counter after a text. -/
def depth (d : ℤ) (l : List α) : ℤ := l.foldl (step opn cls) d

/-- The pieces of a text. -/
def cut : ℤ → List α → List (List α)
  | _, [] => [[]]
  | d, c :: cs =>
    if c = sep ∧ d ≤ 0 then [] :: cut d cs else glue [c] (cut (step opn cls d c) cs)

variable {opn cls sep}

theorem depth_append (d : ℤ) (s t : List α) :
    depth opn cls d (s ++ t) = depth opn cls (depth opn cls d s) t := List.foldl_append

theorem cut_sep {d : ℤ} (hd : d ≤ 0) (l : List α) :
    cut opn cls sep d (sep :: l) = [] :: cut opn cls sep d l := if_pos ⟨rfl, hd⟩

theorem cut_cons {d : ℤ} {c : α} (h : ¬ (c = sep ∧ d ≤ 0)) (l : List α) :
    cut opn cls sep d (c :: l) = glue [c] (cut opn cls sep (step opn cls d c) l) := if_neg h

theorem cut_ne_nil (d : ℤ) (l : List α) : cut opn cls sep d l ≠ [] := by
  cases l with
  | nil => exact List.cons_ne_nil _ _
  | cons c l =>
    by_cases h : c = sep ∧ d ≤ 0
    · rw [cut, if_pos h]
      exact List.cons_ne_nil _ _
    · rw [cut_cons h]
      cases cut opn cls sep (step opn cls d c) l with
      | nil => exact List.cons_ne_nil _ _
      | cons p ps => exact List.cons_ne_nil _ _

/-- A text stays whole when its first character does not cut it, and the rest stays whole. -/
theorem cut_cons_eq_self {d : ℤ} {c : α} {l : List α} (h : cut opn cls sep d (c :: l) = [c :: l]) :
    ¬ (c = sep ∧ d ≤ 0) ∧ cut opn cls sep (step opn cls d c) l = [l] := by
  by_cases hc : c = sep ∧ d ≤ 0
  · rw [cut, if_pos hc] at h
    exact absurd (List.cons.inj h).1 (List.cons_ne_nil _ _).symm
  · refine ⟨hc, ?_⟩
    rw [cut_cons hc] at h
    cases hcut : cut opn cls sep (step opn cls d c) l with
    | nil => exact absurd hcut (cut_ne_nil _ _)
    | cons q qs =>
      rw [hcut] at h
      simp only [glue, List.cons_append, List.nil_append, List.cons.injEq, true_and] at h
      rw [h.1, h.2]

/-- Either nothing is cut off, or the first piece ends at a separator that counts. -/
theorem cut_cases (d : ℤ) (l : List α) :
    cut opn cls sep d l = [l] ∨ ∃ p l', l = p ++ sep :: l' ∧ depth opn cls d p ≤ 0 ∧
      cut opn cls sep d p = [p] ∧
      cut opn cls sep d l = p :: cut opn cls sep (depth opn cls d p) l' := by
  induction l generalizing d with
  | nil => exact Or.inl rfl
  | cons c l ih =>
    by_cases h : c = sep ∧ d ≤ 0
    · obtain ⟨rfl, hd⟩ := h
      exact Or.inr ⟨[], l, rfl, hd, rfl, cut_sep hd l⟩
    · rcases ih (step opn cls d c) with hl | ⟨p, l', rfl, hd, hp, hcut⟩
      · left
        rw [cut_cons h, hl]
        rfl
      · refine Or.inr ⟨c :: p, l', rfl, hd, ?_, ?_⟩
        · rw [cut_cons h, hp]
          rfl
        · rw [cut_cons h, hcut]
          rfl

/-- No piece is longer than the text. -/
theorem length_le_of_mem_cut {d : ℤ} {l p : List α} (h : p ∈ cut opn cls sep d l) :
    p.length ≤ l.length := by
  induction l generalizing d p with
  | nil =>
    rw [List.mem_singleton.1 h]
  | cons c l ih =>
    by_cases hc : c = sep ∧ d ≤ 0
    · rw [cut, if_pos hc] at h
      rcases List.mem_cons.1 h with rfl | h
      · exact Nat.zero_le _
      · exact (ih h).trans (Nat.le_succ _)
    · rw [cut_cons hc] at h
      cases hcut : cut opn cls sep (step opn cls d c) l with
      | nil => exact absurd hcut (cut_ne_nil _ _)
      | cons q qs =>
        rw [hcut] at h
        rcases List.mem_cons.1 h with rfl | h
        · have hq := ih (hcut ▸ List.mem_cons_self)
          rw [List.length_append, List.length_singleton, List.length_cons]
          omega
        · exact (ih (hcut ▸ List.mem_cons_of_mem _ h)).trans (Nat.le_succ _)

/-- A text without brackets stays whole, where it has no separator or stands between brackets. -/
theorem cut_plain {d : ℤ} {s : List α} (hs : ∀ c ∈ s, c ≠ opn ∧ c ≠ cls ∧ (c = sep → 0 < d))
    (l : List α) : cut opn cls sep d (s ++ l) = glue s (cut opn cls sep d l) := by
  induction s with
  | nil =>
    cases hl : cut opn cls sep d l with
    | nil => exact absurd hl (cut_ne_nil d l)
    | cons p ps => exact hl
  | cons c s ih =>
    obtain ⟨hopn, hcls, hsep⟩ := hs c List.mem_cons_self
    have hstep : step opn cls d c = d := by
      rw [step, if_neg hopn, if_neg hcls]
    have hcut : ¬ (c = sep ∧ d ≤ 0) := by
      rintro ⟨hc, hd⟩
      exact absurd (hsep hc) (by omega)
    rw [List.cons_append, cut_cons hcut, hstep, ih fun x hx => hs x (List.mem_cons_of_mem _ hx),
      glue_glue]
    rfl

/-- A bracket is part of the piece it stands in. -/
theorem cut_bracket {d d' : ℤ} {c : α} (hc : c ≠ sep) (hstep : step opn cls d c = d')
    (l : List α) : cut opn cls sep d (c :: l) = glue [c] (cut opn cls sep d' l) := by
  rw [cut_cons (fun h => hc h.1), hstep]

end Cut
