import DuckIceberg.Lib.Stride

/-!
# Cutting a list into pieces

A list cut into pieces of `c` elements, of which the last may be shorter, is what a reader that asks
for `c` elements at a time sees whole: no request stops inside a piece.
-/

namespace Stride

variable {ρ : Type*} (c : ℕ)

/-- At most `n` pieces of `c` elements each, the last of which may be shorter. -/
def cutFrom : ℕ → List ρ → List (List ρ)
  | 0, _ => []
  | _, [] => []
  | n + 1, x :: l => (x :: l).take c :: cutFrom n ((x :: l).drop c)

/-- All of the list in pieces. -/
def cutEvery (l : List ρ) : List (List ρ) := cutFrom c l.length l

variable {c}

theorem flatten_cutFrom (hc : 0 < c) {n : ℕ} {l : List ρ} (hn : l.length ≤ n) :
    (cutFrom c n l).flatten = l := by
  induction n generalizing l with
  | zero =>
    rw [List.length_eq_zero_iff.1 (Nat.le_zero.1 hn)]
    rfl
  | succ n ih =>
    cases l with
    | nil => rfl
    | cons x l =>
      have hrest : ((x :: l).drop c).length ≤ n := by
        rw [List.length_drop]
        rw [List.length_cons] at hn ⊢
        omega
      rw [cutFrom, List.flatten_cons, ih hrest, List.take_append_drop]

theorem flatten_cutEvery (hc : 0 < c) (l : List ρ) : (cutEvery c l).flatten = l :=
  flatten_cutFrom hc le_rfl

theorem mem_of_mem_cutEvery (hc : 0 < c) {l p : List ρ} (hp : p ∈ cutEvery c l) {x : ρ}
    (hx : x ∈ p) : x ∈ l := by
  rw [← flatten_cutEvery hc l]
  exact List.mem_flatten_of_mem hp hx

theorem length_of_mem_cutFrom (hc : 0 < c) {n : ℕ} {l p : List ρ} (hp : p ∈ cutFrom c n l) :
    0 < p.length ∧ p.length ≤ c := by
  induction n generalizing l with
  | zero => cases hp
  | succ n ih =>
    cases l with
    | nil => cases hp
    | cons x l =>
      rcases List.mem_cons.1 hp with rfl | hp
      · rw [List.length_take, List.length_cons]
        omega
      · exact ih hp

theorem length_of_mem_cutEvery (hc : 0 < c) {l p : List ρ} (hp : p ∈ cutEvery c l) :
    0 < p.length ∧ p.length ≤ c :=
  length_of_mem_cutFrom hc hp

/-- A piece in front of others is full, so a request that takes all of it has its elements. -/
theorem lost_cutFrom {live : ρ → Bool} {n : ℕ} {l : List ρ}
    (h : l.length ≤ c ∨ ∀ x ∈ l, live x = true) : lost c live 0 (cutFrom c n l) = [] := by
  induction n generalizing l with
  | zero => rfl
  | succ n ih =>
    cases l with
    | nil => rfl
    | cons x l =>
      have hfits : ((x :: l).take c).drop (c - 0) = [] := by
        rw [List.drop_eq_nil_iff, List.length_take, Nat.sub_zero]
        exact Nat.min_le_left _ _
      rw [cutFrom, lost, hfits, List.nil_append]
      by_cases hlast : (x :: l).length ≤ c
      · -- nothing comes after the only piece
        rw [List.drop_eq_nil_of_le hlast]
        cases n <;> rfl
      have hlive : ∀ y ∈ x :: l, live y = true := h.resolve_left hlast
      have hfull : advance c live 0 ((x :: l).take c) = 0 := by
        have hcount : (((x :: l).take c).take (c - 0)).countP live = c := by
          rw [Nat.sub_zero, List.take_take, Nat.min_self, List.countP_eq_length.2, List.length_take]
          · omega
          · exact fun y hy => hlive y (List.mem_of_mem_take hy)
        rw [advance, hcount, Nat.zero_add, if_pos rfl]
      rw [hfull]
      exact ih (Or.inr fun y hy => hlive y (List.mem_of_mem_drop hy))

/-- **Nothing is stepped over** in a list of live elements, or in one that fits in a piece. -/
theorem lost_cutEvery {live : ρ → Bool} {l : List ρ}
    (h : l.length ≤ c ∨ ∀ x ∈ l, live x = true) : lost c live 0 (cutEvery c l) = [] :=
  lost_cutFrom h

end Stride
