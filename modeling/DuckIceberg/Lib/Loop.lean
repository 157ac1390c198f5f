import Mathlib.Tactic

/-!
# Bounded loops

A `while` loop is given by its body: one round either goes round again with a new state or
leaves the loop with a result. `run body n s` performs at most `n` rounds, and `none` says that
`n` rounds were not enough.

* `run_spec` is the total-correctness rule: an invariant, a variant that every round decreases,
  and a relation between the state at the head of the loop and its result;
* `run_mono` says that a result does not depend on how many rounds were allowed;
* `run_log` is the same rule for a loop that writes a log;
* `run_together` relates two loops that go round in step.
-/

namespace Loop

/-- What one round of a loop does. -/
inductive Step (σ α : Type*)
  /-- go round again -/
  | next (s : σ)
  /-- leave the loop -/
  | done (a : α)

variable {σ α : Type*} {body : σ → Step σ α}

/-- At most `n` rounds of the loop. -/
def run (body : σ → Step σ α) : ℕ → σ → Option α
  | 0, _ => none
  | n + 1, s =>
    match body s with
    | .done a => some a
    | .next s' => run body n s'

@[simp] theorem run_zero (body : σ → Step σ α) (s : σ) : run body 0 s = none := rfl

theorem run_succ_done {s : σ} {a : α} (h : body s = .done a) (n : ℕ) :
    run body (n + 1) s = some a := by
  rw [run, h]

theorem run_succ_next {s s' : σ} (h : body s = .next s') (n : ℕ) :
    run body (n + 1) s = run body n s' := by
  rw [run, h]

/-- The first round decides: two states that it treats alike have the same runs. -/
theorem run_succ_congr {s s' : σ} (h : body s = body s') (n : ℕ) :
    run body (n + 1) s = run body (n + 1) s' := by
  rw [run, run, h]

/-- A result found within `n` rounds is found within any larger number of rounds. -/
theorem run_mono {n m : ℕ} (hle : n ≤ m) {s : σ} {a : α} (h : run body n s = some a) :
    run body m s = some a := by
  induction n generalizing m s with
  | zero => simp at h
  | succ n ih =>
    obtain ⟨m, rfl⟩ : ∃ k, m = k + 1 := ⟨m - 1, by omega⟩
    cases hb : body s with
    | done b =>
      rw [run_succ_done hb] at h ⊢
      exact h
    | next s' =>
      rw [run_succ_next hb] at h ⊢
      exact ih (by omega) h

/-- **Total correctness.** `P s a` relates the state at the head of the loop to the result. -/
theorem run_spec (Inv : σ → Prop) (μ : σ → ℕ) (P : σ → α → Prop)
    (hdone : ∀ s a, Inv s → body s = .done a → P s a)
    (hnext : ∀ s s', Inv s → body s = .next s' →
      Inv s' ∧ μ s' < μ s ∧ ∀ a, P s' a → P s a) :
    ∀ (n : ℕ) (s : σ), Inv s → μ s < n → ∃ a, run body n s = some a ∧ P s a := by
  intro n
  induction n with
  | zero => intro s _ h; omega
  | succ n ih =>
    intro s hs hμ
    cases hb : body s with
    | done a => exact ⟨a, run_succ_done hb n, hdone s a hs hb⟩
    | next s' =>
      obtain ⟨hs', hlt, hP⟩ := hnext s s' hs hb
      obtain ⟨a, ha, hPa⟩ := ih s' hs' (by omega)
      exact ⟨a, by rw [run_succ_next hb, ha], hP a hPa⟩

/-- The result of `run_spec` for a loop that is known to have left with `a`. -/
theorem run_elim (Inv : σ → Prop) (P : σ → α → Prop)
    (hdone : ∀ s a, Inv s → body s = .done a → P s a)
    (hnext : ∀ s s', Inv s → body s = .next s' → Inv s' ∧ ∀ a, P s' a → P s a)
    {n : ℕ} {s : σ} {a : α} (hs : Inv s) (h : run body n s = some a) : P s a := by
  induction n generalizing s with
  | zero => simp at h
  | succ n ih =>
    cases hb : body s with
    | done b =>
      rw [run_succ_done hb] at h
      cases h
      exact hdone s _ hs hb
    | next s' =>
      obtain ⟨hs', hP⟩ := hnext s s' hs hb
      rw [run_succ_next hb] at h
      exact hP a (ih hs' h)

/-- The states at the heads of at most `n` rounds. -/
def states (body : σ → Step σ α) : ℕ → σ → List σ
  | 0, _ => []
  | n + 1, s =>
    s :: match body s with
      | .done _ => []
      | .next s' => states body n s'

/-- **Total correctness, with a log.**  A round at `s` writes `f s`; the invariant and the result
speak of what has been written so far. -/
theorem run_log {ι : Type*} (f : σ → List ι) (Inv : List ι → σ → Prop) (μ : σ → ℕ)
    (P : List ι → α → Prop)
    (hdone : ∀ log s a, Inv log s → body s = .done a → P (log ++ f s) a)
    (hnext : ∀ log s s', Inv log s → body s = .next s' → Inv (log ++ f s) s' ∧ μ s' < μ s) :
    ∀ (n : ℕ) (log : List ι) (s : σ), Inv log s → μ s < n →
      ∃ a, run body n s = some a ∧ P (log ++ (states body n s).flatMap f) a := by
  intro n
  induction n with
  | zero => intro log s _ h; omega
  | succ n ih =>
    intro log s hs hμ
    cases hb : body s with
    | done a =>
      refine ⟨a, run_succ_done hb n, ?_⟩
      simp only [states, hb, List.flatMap_cons, List.flatMap_nil, List.append_nil]
      exact hdone log s a hs hb
    | next s' =>
      obtain ⟨hs', hlt⟩ := hnext log s s' hs hb
      obtain ⟨a, ha, hPa⟩ := ih (log ++ f s) s' hs' (by omega)
      refine ⟨a, by rw [run_succ_next hb, ha], ?_⟩
      simp only [states, hb, List.flatMap_cons]
      rwa [← List.append_assoc]

/-- What holds at the head of every round. -/
theorem forall_states (Inv : σ → Prop)
    (hnext : ∀ s s', Inv s → body s = .next s' → Inv s') (n : ℕ) {s : σ} (hs : Inv s) :
    ∀ t ∈ states body n s, Inv t := by
  induction n generalizing s with
  | zero => exact List.forall_mem_nil _
  | succ n ih =>
    intro t ht
    rw [states] at ht
    rcases List.mem_cons.1 ht with rfl | ht
    · exact hs
    · cases hb : body s with
      | done a =>
        rw [hb] at ht
        cases ht
      | next s' =>
        rw [hb] at ht
        exact ih (hnext s s' hs hb) t ht

/-- What holds of the state after a round, or of the result. -/
def Step.Holds (P : σ → Prop) (P' : α → Prop) : Step σ α → Prop
  | .next s => P s
  | .done a => P' a

/-- What every round keeps holds of the result. -/
theorem run_holds {P : σ → Prop} {P' : α → Prop} (h : ∀ s, P s → (body s).Holds P P') {n : ℕ}
    {s : σ} {a : α} (hs : P s) (hrun : run body n s = some a) : P' a := by
  refine run_elim P (fun _ => P') (fun s a hs hb => ?_) (fun s s' hs hb => ?_) hs hrun
  · have hround := h s hs
    rw [hb] at hround
    exact hround
  · have hround := h s hs
    rw [hb] at hround
    exact ⟨hround, fun _ => id⟩

/-- The rounds of a loop that has ended are the same however many more were allowed. -/
theorem states_mono {n m : ℕ} (hle : n ≤ m) {s : σ} {a : α} (h : run body n s = some a) :
    states body m s = states body n s := by
  induction n generalizing m s with
  | zero => simp at h
  | succ n ih =>
    obtain ⟨m, rfl⟩ : ∃ k, m = k + 1 := ⟨m - 1, by omega⟩
    rw [states, states]
    cases hb : body s with
    | done b => rfl
    | next s' =>
      rw [run_succ_next hb] at h
      exact congrArg (s :: ·) (ih (by omega) h)

/-- Two bodies that go round together and leave together with related results. -/
def Together {τ β : Type*} (R : σ → τ → Prop) (Q : α → β → Prop) : Step σ α → Step τ β → Prop
  | .next s, .next t => R s t
  | .done a, .done b => Q a b
  | _, _ => False

/-- Loops whose bodies go together have related results. -/
theorem run_together {τ β : Type*} {body' : τ → Step τ β} {R : σ → τ → Prop} {Q : α → β → Prop}
    (h : ∀ s t, R s t → Together R Q (body s) (body' t)) (n : ℕ) {s : σ} {t : τ} (hst : R s t) :
    Option.Rel Q (run body n s) (run body' n t) := by
  induction n generalizing s t with
  | zero => exact Option.Rel.none
  | succ n ih =>
    have hround := h s t hst
    unfold run
    generalize body s = x at hround ⊢
    generalize body' t = y at hround ⊢
    cases x with
    | next s' =>
      cases y with
      | next t' => exact ih hround
      | done b => exact False.elim hround
    | done a =>
      cases y with
      | next t' => exact False.elim hround
      | done b => exact Option.Rel.some hround

end Loop
