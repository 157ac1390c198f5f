import Mathlib.Tactic

/-!
# Draining a source call by call

A source that is called again and again delivers some rows with each call, and says that it has no
more by a call without rows.  `drain call n s` makes at most `n` calls and collects what they
deliver, up to and including the first call without rows; an exception ends it.

* `drain_mono`: what is collected does not depend on how many calls were allowed;
* `drain_spec`: a source that takes each delivery from the front of what is left is drained of
  exactly that.
-/

namespace Drain

variable {σ ε α : Type*} {call : σ → Except ε (List α) × σ}

/-- The deliveries of at most `n` calls. -/
def drain (call : σ → Except ε (List α) × σ) : ℕ → σ → Option (Except ε (List (List α)))
  | 0, _ => none
  | n + 1, s =>
    match call s with
    | (.error e, _) => some (.error e)
    | (.ok [], _) => some (.ok [[]])
    | (.ok (row :: rows), s') => (drain call n s').map fun out => out.map ((row :: rows) :: ·)

theorem drain_succ_error {s s' : σ} {e : ε} (h : call s = (.error e, s')) (n : ℕ) :
    drain call (n + 1) s = some (.error e) := by
  rw [drain, h]

theorem drain_succ_nil {s s' : σ} (h : call s = (.ok [], s')) (n : ℕ) :
    drain call (n + 1) s = some (.ok [[]]) := by
  rw [drain, h]

theorem drain_succ_rows {s s' : σ} {rows : List α} (h : call s = (.ok rows, s')) (hne : rows ≠ [])
    (n : ℕ) :
    drain call (n + 1) s = (drain call n s').map fun out => out.map (rows :: ·) := by
  cases rows with
  | nil => exact absurd rfl hne
  | cons row rows => rw [drain, h]

/-- What is collected within `n` calls is collected within any larger number of calls. -/
theorem drain_mono {n m : ℕ} (hle : n ≤ m) {s : σ} {out : Except ε (List (List α))}
    (h : drain call n s = some out) : drain call m s = some out := by
  induction n generalizing m s out with
  | zero => cases h
  | succ n ih =>
    obtain ⟨m, rfl⟩ : ∃ k, m = k + 1 := ⟨m - 1, by omega⟩
    rcases hcall : call s with ⟨e | rows, s'⟩
    · rw [drain_succ_error hcall] at h ⊢
      exact h
    · by_cases hne : rows = []
      · subst hne
        rw [drain_succ_nil hcall] at h ⊢
        exact h
      · rw [drain_succ_rows hcall hne] at h ⊢
        obtain ⟨out', hout, rfl⟩ := Option.map_eq_some_iff.1 h
        rw [ih (by omega) hout]
        rfl

/-- Two runs that end collect the same. -/
theorem drain_unique {n m : ℕ} {s : σ} {out out' : Except ε (List (List α))}
    (h : drain call n s = some out) (h' : drain call m s = some out') : out = out' := by
  rcases Nat.le_total n m with hle | hle
  · exact Option.some.inj ((drain_mono hle h).symm.trans h')
  · exact Option.some.inj (h.symm.trans (drain_mono hle h'))

/-- **A source is drained of what is left.**  `rest s` is what is left in the state `s`: every call
takes its rows from the front of it, and takes some as long as there are any. -/
theorem drain_spec (Inv : σ → Prop) (rest : σ → List α) (size : ℕ)
    (hcall : ∀ s, Inv s → ∃ rows s', call s = (.ok rows, s') ∧ Inv s' ∧
      rest s = rows ++ rest s' ∧ (rows = [] → rest s = []) ∧ rows.length ≤ size) :
    ∀ (n : ℕ) (s : σ), Inv s → (rest s).length < n →
      ∃ out, drain call n s = some (.ok out) ∧ out.flatten = rest s ∧
        ∀ rows ∈ out, rows.length ≤ size := by
  intro n
  induction n with
  | zero => intro s _ h; omega
  | succ n ih =>
    intro s hs hn
    obtain ⟨rows, s', hrun, hs', hrest, hnil, hsize⟩ := hcall s hs
    by_cases hne : rows = []
    · subst hne
      refine ⟨[[]], drain_succ_nil hrun n, ?_, ?_⟩
      · rw [hnil rfl]
        rfl
      · simp
    · have hpos : 0 < rows.length := List.length_pos_iff.2 hne
      have hlen : (rest s').length < n := by
        rw [hrest, List.length_append] at hn
        omega
      obtain ⟨out, hout, hflat, hall⟩ := ih s' hs' hlen
      refine ⟨rows :: out, ?_, ?_, ?_⟩
      · rw [drain_succ_rows hrun hne, hout]
        rfl
      · rw [List.flatten_cons, hflat, hrest]
      · intro r hr
        rcases List.mem_cons.1 hr with rfl | hr
        · exact hsize
        · exact hall r hr

end Drain
