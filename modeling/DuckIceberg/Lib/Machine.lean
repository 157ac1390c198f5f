import Mathlib.Tactic

/-!
# Machines that answer calls

A machine keeps a state and answers one call after the other. `step` is one call.

* `answers_eq_map`: a machine whose state is hidden from its callers: as long as the calls follow a
  protocol, each of them is answered as a function of the call alone says;
* `component_answers`: several machines side by side, with calls to one of them and calls to all: what
  one of them answers is a matter of its own calls.
-/

namespace Machine

variable {σ κ α π : Type*}

/-- The answers to these calls. -/
def answers (step : σ → κ → α × σ) : σ → List κ → List α
  | _, [] => []
  | s, c :: calls => (step s c).1 :: answers step (step s c).2 calls

variable {step : σ → κ → α × σ}

/-- What is made of the answers may be made of each as it is given. -/
theorem map_answers {γ : Type*} (f : α → γ) (s : σ) (calls : List κ) :
    (answers step s calls).map f = answers (fun s c => (f (step s c).1, (step s c).2)) s calls := by
  induction calls generalizing s with
  | nil => rfl
  | cons c calls ih => rw [answers, List.map_cons, ih, answers]

/-! ### Protocols -/

/-- The calls come in an order that the protocol allows: `next p c` is where it is after the call `c`,
if it allows that one. -/
def Follows (next : π → κ → Option π) : π → List κ → Prop
  | _, [] => True
  | p, c :: calls => ∃ p', next p c = some p' ∧ Follows next p' calls

/-- **A machine with a hidden state.** `Inv p s` relates the state to where the protocol is. -/
theorem answers_eq_map {next : π → κ → Option π} {spec : κ → α} (Inv : π → σ → Prop)
    (h : ∀ p s c p', Inv p s → next p c = some p' →
      (step s c).1 = spec c ∧ Inv p' (step s c).2)
    {p : π} {s : σ} (hs : Inv p s) {calls : List κ} (hcalls : Follows next p calls) :
    answers step s calls = calls.map spec := by
  induction calls generalizing p s with
  | nil => rfl
  | cons c calls ih =>
    obtain ⟨p', hnext, hrest⟩ := hcalls
    obtain ⟨hanswer, hs'⟩ := h p s c p' hs hnext
    rw [answers, List.map_cons, hanswer, ih hs' hrest]

/-- The same where the calls may come in any order. -/
theorem answers_eq_map_of_forall {spec : κ → α} {Inv : σ → Prop} {P : κ → Prop}
    (h : ∀ s c, Inv s → P c → (step s c).1 = spec c ∧ Inv (step s c).2) {s : σ} (hs : Inv s)
    {calls : List κ} (hcalls : ∀ c ∈ calls, P c) : answers step s calls = calls.map spec := by
  induction calls generalizing s with
  | nil => rfl
  | cons c calls ih =>
    obtain ⟨hc, hrest⟩ := List.forall_mem_cons.1 hcalls
    obtain ⟨hanswer, hnext⟩ := h s c hs hc
    rw [answers, List.map_cons, hanswer, ih hnext hrest]

/-- Each piece of work is done by one of the calls: together they deliver what the pieces of work
deliver, in some order. -/
theorem flatMap_perm {ω β : Type*} {work : List ω} {calls : List κ} {task : κ → Option ω}
    {deliver : ω → List β} {delivered : κ → List β}
    (hdelivered : ∀ c, delivered c = (task c).elim [] deliver)
    (h : (calls.filterMap task).Perm work) :
    (calls.flatMap delivered).Perm (work.flatMap deliver) := by
  have hcalls : calls.flatMap delivered = (calls.filterMap task).flatMap deliver := by
    clear h
    induction calls with
    | nil => rfl
    | cons c calls ih =>
      rw [List.flatMap_cons, ih, hdelivered]
      cases htask : task c with
      | none => rw [List.filterMap_cons_none htask]; rfl
      | some w => rw [List.filterMap_cons_some htask]; rfl
  rw [hcalls]
  exact h.flatMap_right deliver

/-! ### Machines side by side -/

section Components

variable {ι β : Type*} [DecidableEq ι]

/-- A call to one of several machines, or one that all of them see. -/
inductive Sent (ι κ β : Type*)
  | one (i : ι) (c : κ)
  | all (b : β)

/-- What the machine `i` sees of a call. -/
def Sent.seenBy (i : ι) : Sent ι κ β → Option (κ ⊕ β)
  | .one j c => if j = i then some (.inl c) else none
  | .all b => some (.inr b)

variable (step : ι → σ → κ → α × σ) (react : ι → σ → β → σ)

/-- A machine on its own: it answers its calls, and reacts to those that all machines see. -/
def alone (i : ι) (s : σ) : κ ⊕ β → Option α × σ
  | .inl c => (some (step i s c).1, (step i s c).2)
  | .inr b => (none, react i s b)

/-- The machines side by side. -/
def beside (s : ι → σ) : Sent ι κ β → Option (ι × α) × (ι → σ)
  | .one i c => (some (i, (step i (s i) c).1), Function.update s i (step i (s i) c).2)
  | .all b => (none, fun i => react i (s i) b)

variable {step react}

/-- A call moves a machine as far as the machine sees the call. -/
theorem beside_component (i : ι) (s : ι → σ) (c : Sent ι κ β) :
    (beside step react s c).2 i =
      ((c.seenBy i).elim (s i) fun seen => (alone step react i (s i) seen).2) := by
  cases c with
  | one j c =>
    by_cases h : j = i
    · subst h
      simp [beside, Sent.seenBy, alone]
    · simp [beside, Sent.seenBy, if_neg h, Function.update_of_ne (Ne.symm h)]
  | all b => rfl

/-- **What a machine answers** is a matter of the calls it sees. -/
theorem component_answers (i : ι) (s : ι → σ) (calls : List (Sent ι κ β)) :
    (answers (beside step react) s calls).filterMap
        (fun answer => answer.bind fun a => if a.1 = i then some a.2 else none) =
      (answers (alone step react i) (s i) (calls.filterMap (Sent.seenBy i))).filterMap id := by
  induction calls generalizing s with
  | nil => rfl
  | cons c calls ih =>
    have hrest := ih (beside step react s c).2
    rw [beside_component] at hrest
    cases c with
    | one j c =>
      by_cases h : j = i
      · subst h
        have hseen : Sent.seenBy j (.one j c : Sent ι κ β) = some (.inl c) := if_pos rfl
        rw [hseen] at hrest
        have hanswer : (alone step react j (s j) (.inl c)).1 = some (step j (s j) c).1 := rfl
        rw [List.filterMap_cons_some hseen, answers, answers,
          List.filterMap_cons_some (b := (step j (s j) c).1) (by simp [beside]), hanswer,
          List.filterMap_cons_some (f := id) (b := (step j (s j) c).1) rfl, hrest]
        rfl
      · have hseen : Sent.seenBy i (.one j c : Sent ι κ β) = none := if_neg h
        rw [hseen] at hrest
        rw [List.filterMap_cons_none hseen, answers,
          List.filterMap_cons_none (by simp [beside, h]), hrest]
        rfl
    | all b =>
      have hseen : Sent.seenBy i (.all b : Sent ι κ β) = some (.inr b) := rfl
      rw [hseen] at hrest
      rw [List.filterMap_cons_some hseen, answers, answers, List.filterMap_cons_none rfl,
        List.filterMap_cons_none rfl, hrest]
      rfl

end Components

end Machine
