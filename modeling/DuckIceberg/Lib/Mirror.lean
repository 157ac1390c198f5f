import DuckIceberg.Lib.Loop

/-!
# Runs that mirror each other

Two runs write logs, and an entry of one log may correspond to an entry of the other.  The runs stay
together as long as the entries of the first log are good; they part at the first that is not,
where the second run stops or writes an entry that does not correspond.

* `Logs.forall₂_iff`: so the logs correspond exactly when all entries of the first are good;
* `Mirrors.bind`: the rule for sequences;
* `run_logs`: the rule for loops.
-/

namespace Mirror

/-! ### Outcomes -/

section Agree

variable {ε ε' α α' β β' : Type*}

/-- Both fail, or both succeed with related results. -/
inductive Agree (P : α → β → Prop) : Except ε α → Except ε' β → Prop
  | ok {a : α} {b : β} (h : P a b) : Agree P (.ok a) (.ok b)
  | error (e : ε) (e' : ε') : Agree P (.error e) (.error e')

theorem Agree.refl {P : α → α → Prop} (h : ∀ a, P a a) (x : Except ε α) : Agree P x x := by
  cases x with
  | error e => exact .error e e
  | ok a => exact .ok (h a)

theorem Agree.bind {ε ε' α α' β β' : Type} {P : α → β → Prop} {Q : α' → β' → Prop}
    {x : Except ε α} {y : Except ε' β} {f : α → Except ε α'} {g : β → Except ε' β'}
    (hxy : Agree P x y) (h : ∀ a b, P a b → Agree Q (f a) (g b)) : Agree Q (x >>= f) (y >>= g) := by
  cases hxy with
  | ok hab => exact h _ _ hab
  | error e e' => exact .error e e'

theorem Agree.ite {P : α → β → Prop} {c : Prop} [Decidable c] {x₁ x₂ : Except ε α}
    {y₁ y₂ : Except ε' β} (hpos : c → Agree P x₁ y₁) (hneg : ¬ c → Agree P x₂ y₂) :
    Agree P (if c then x₁ else x₂) (if c then y₁ else y₂) := by
  by_cases h : c
  · rw [if_pos h, if_pos h]
    exact hpos h
  · rw [if_neg h, if_neg h]
    exact hneg h

end Agree

/-! ### Logs -/

section Logs

variable {κ κ' : Type*} {Q : κ → κ' → Prop} {good : κ → Prop}

variable (Q good) in
/-- The logs of two runs: `together` says that the runs are still together, and `stopped` that the
second one has stopped. -/
inductive Logs (log : List κ) (log' : List κ') (together stopped : Prop) : Prop
  | same (all : ∀ f ∈ log, good f) (corresponds : List.Forall₂ Q log log') (h : together)
  | parts (first : List κ) (f : κ) (rest : List κ) (first' rest' : List κ')
      (hlog : log = first ++ f :: rest) (hlog' : log' = first' ++ rest')
      (corresponds : List.Forall₂ Q first first') (bad : ¬ good f)
      (h : rest' = [] ∧ stopped ∨ ∃ f' others, rest' = f' :: others ∧ ¬ Q f f')

variable {log log₂ : List κ} {log' log₂' : List κ'} {together stopped together₂ stopped₂ : Prop}

theorem Logs.nil (h : together) : Logs Q good [] [] together stopped :=
  .same (List.forall_mem_nil _) .nil h

theorem Logs.mono (h : Logs Q good log log' together stopped) (htogether : together → together₂)
    (hstopped : stopped → stopped₂) : Logs Q good log log' together₂ stopped₂ := by
  cases h with
  | same all corresponds h => exact .same all corresponds (htogether h)
  | parts first f rest first' rest' hlog hlog' corresponds bad h =>
    exact .parts first f rest first' rest' hlog hlog' corresponds bad
      (h.imp_left fun hstop => ⟨hstop.1, hstopped hstop.2⟩)

/-- Logs one after the other: what comes second matters only to runs that are still together, and
a run that has stopped writes nothing. -/
theorem Logs.append (h : Logs Q good log log' together stopped)
    (hnext : together → Logs Q good log₂ log₂' together₂ stopped₂)
    (hstop : stopped → log₂' = [] ∧ stopped₂) :
    Logs Q good (log ++ log₂) (log' ++ log₂') together₂ stopped₂ := by
  cases h with
  | same all corresponds h =>
    cases hnext h with
    | same all₂ corresponds₂ h₂ =>
      refine .same (fun f hf => ?_) (List.rel_append corresponds corresponds₂) h₂
      rcases List.mem_append.1 hf with hf | hf
      · exact all f hf
      · exact all₂ f hf
    | parts first f rest first' rest' hlog hlog' corresponds₂ bad h₂ =>
      refine .parts (log ++ first) f rest (log' ++ first') rest' ?_ ?_
        (List.rel_append corresponds corresponds₂) bad h₂
      · rw [hlog, List.append_assoc]
      · rw [hlog', List.append_assoc]
  | parts first f rest first' rest' hlog hlog' corresponds bad h =>
    refine .parts first f (rest ++ log₂) first' (rest' ++ log₂') ?_ ?_ corresponds bad ?_
    · rw [hlog, List.append_assoc, List.cons_append]
    · rw [hlog', List.append_assoc]
    · rcases h with ⟨rfl, hstopped⟩ | ⟨f', others, rfl, hf'⟩
      · obtain ⟨rfl, hstopped₂⟩ := hstop hstopped
        exact Or.inl ⟨rfl, hstopped₂⟩
      · exact Or.inr ⟨f', others ++ log₂', rfl, hf'⟩

/-- Runs whose first log is good stay together. -/
theorem Logs.together_of_good (h : Logs Q good log log' together stopped)
    (hgood : ∀ f ∈ log, good f) : List.Forall₂ Q log log' ∧ together := by
  cases h with
  | same all corresponds h => exact ⟨corresponds, h⟩
  | parts first f rest first' rest' hlog hlog' corresponds bad h =>
    exact absurd (hgood f (by rw [hlog]; simp)) bad

/-- **Logs correspond** exactly when the entries of the first are good. -/
theorem Logs.forall₂_iff (h : Logs Q good log log' together stopped) :
    List.Forall₂ Q log log' ↔ ∀ f ∈ log, good f := by
  refine ⟨fun hlogs => ?_, fun hgood => (h.together_of_good hgood).1⟩
  cases h with
  | same all corresponds h => exact all
  | parts first f rest first' rest' hlog hlog' corresponds bad h =>
    -- the entries where the runs part are at the same place
    have hrest := List.forall₂_drop first'.length hlogs
    rw [hlog, hlog', List.drop_left, ← corresponds.length_eq, List.drop_left] at hrest
    rcases h with ⟨rfl, -⟩ | ⟨f', others, rfl, hf'⟩
    · cases hrest
    · exact absurd (List.forall₂_cons.1 hrest).1 hf'

end Logs

/-! ### Computations that write logs -/

section Mirrors

variable {σ σ' ε ε' κ κ' α α' β β' : Type}

/-- A computation on a state that may fail, with the log it writes. -/
abbrev Logged (σ ε κ α : Type) := σ → (Except ε α × σ) × List κ

/-- Success, without a log. -/
def Logged.ret (a : α) : Logged σ ε κ α := fun s => ((.ok a, s), [])

/-- What comes after an outcome: nothing when it is a failure. -/
def Logged.next (f : α → Logged σ ε κ β) : Except ε α × σ → (Except ε β × σ) × List κ
  | (.error e, s) => ((.error e, s), [])
  | (.ok a, s) => f a s

/-- One computation after the other. -/
def Logged.bind (x : Logged σ ε κ α) (f : α → Logged σ ε κ β) : Logged σ ε κ β := fun s =>
  ((Logged.next f (x s).1).1, (x s).2 ++ (Logged.next f (x s).1).2)

variable (R : σ → σ' → Prop) (Q : κ → κ' → Prop) (good : κ → Prop)

/-- The outcomes agree, and the states they leave are related. -/
def Outcomes (P : α → α' → Prop) (out : Except ε α × σ) (out' : Except ε' α' × σ') : Prop :=
  Agree P out.1 out'.1 ∧ R out.2 out'.2

/-- The second computation mirrors the first one, as long as that writes what is good. -/
def Mirrors (P : α → α' → Prop) (x : Logged σ ε κ α) (x' : Logged σ' ε' κ' α') : Prop :=
  ∀ s s', R s s' →
    Logs Q good (x s).2 (x' s').2 (Outcomes R P (x s).1 (x' s').1) (∃ e, (x' s').1.1 = .error e)

variable {R Q good} {P : α → α' → Prop} {P₂ : β → β' → Prop}

theorem Mirrors.ret {a : α} {a' : α'} (h : P a a') :
    Mirrors R Q good P (Logged.ret a : Logged σ ε κ α) (Logged.ret a' : Logged σ' ε' κ' α') :=
  fun _ _ hs => .nil ⟨.ok h, hs⟩

theorem Mirrors.bind {x : Logged σ ε κ α} {x' : Logged σ' ε' κ' α'} {f : α → Logged σ ε κ β}
    {f' : α' → Logged σ' ε' κ' β'} (hx : Mirrors R Q good P x x')
    (hf : ∀ a a', P a a' → Mirrors R Q good P₂ (f a) (f' a')) :
    Mirrors R Q good P₂ (x.bind f) (x'.bind f') := by
  intro s s' hs
  unfold Logged.bind
  refine (hx s s' hs).append (fun h => ?_) ?_
  · obtain ⟨hagree, hstate⟩ := h
    generalize (x s).1 = out at hagree hstate ⊢
    generalize (x' s').1 = out' at hagree hstate ⊢
    obtain ⟨res, s₁⟩ := out
    obtain ⟨res', s₁'⟩ := out'
    cases hagree with
    | ok hP => exact hf _ _ hP s₁ s₁' hstate
    | error e e' => exact .nil ⟨.error e e', hstate⟩
  · rintro ⟨e, he⟩
    generalize (x' s').1 = out' at he ⊢
    obtain ⟨res', s₁'⟩ := out'
    obtain rfl : res' = .error e := he
    exact ⟨rfl, e, rfl⟩

end Mirrors

/-! ### Loops -/

section Loops

open Loop

variable {σ σ' α α' κ κ' : Type*} {R : σ → σ' → Prop} {Out : α → α' → Prop} {Stop : α' → Prop}
  {Q : κ → κ' → Prop} {good : κ → Prop} {body : σ → Step σ α} {body' : σ' → Step σ' α'}
  {log : σ → List κ} {log' : σ' → List κ'}

/-- **Loops whose rounds mirror each other** mirror each other. -/
theorem run_logs
    (h : ∀ s s', R s s' → Logs Q good (log s) (log' s') (Together R Out (body s) (body' s'))
      (∃ a', body' s' = .done a' ∧ Stop a')) (n : ℕ) {s : σ} {s' : σ'} (hs : R s s') :
    Logs Q good ((states body n s).flatMap log) ((states body' n s').flatMap log')
      (Option.Rel Out (run body n s) (run body' n s')) (∃ a', run body' n s' = some a' ∧ Stop a') := by
  induction n generalizing s s' with
  | zero => exact .nil .none
  | succ n ih =>
    have hround := h s s' hs
    unfold states run
    rw [List.flatMap_cons, List.flatMap_cons]
    refine hround.append (fun htogether => ?_) ?_
    · generalize body s = x at htogether ⊢
      generalize body' s' = y at htogether ⊢
      cases x with
      | next t =>
        cases y with
        | next t' => exact ih htogether
        | done b => exact False.elim htogether
      | done a =>
        cases y with
        | next t' => exact False.elim htogether
        | done b => exact .nil (.some htogether)
    · rintro ⟨a', ha', hstop⟩
      rw [ha']
      exact ⟨rfl, a', rfl, hstop⟩

end Loops

end Mirror
