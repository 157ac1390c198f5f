import Mathlib.Tactic

/-!
# Reading deliveries by strides

A source delivers rows in pieces; a reader asks for `c` *live* rows at a time.  In each round it
is offered the next rows of the piece it is in, at most as many as it still lacks, and then moves
its cursor `c` rows on — not by the number of rows it was offered.  `pull` is one such request.

* `pull_filter_eq_iff`: a request passes over no row that `keep` wants exactly when the pieces
  it goes through satisfy `Spares`;
* `pull_ahead`, `pull_scanned`: what a request consumes, and how it stops;
* `kept` and `lost`: for pieces of at most `c` rows, the rows that a source read to its end
  offers and the rows it steps over (`pull_kept`, `kept_filter_eq_iff`, `lost_live_iff`).
-/

namespace Stride

variable {ρ ε : Type*}

/-- One delivery of a source. -/
inductive Piece (ρ ε : Type*)
  /-- rows arrive -/
  | rows (l : List ρ)
  /-- the delivery throws, and is over -/
  | fails (e : ε)
  /-- the delivery has arrived but cannot be read: every attempt throws -/
  | stuck (e : ε)

/-- The rows of a delivery. -/
def Piece.toRows : Piece ρ ε → List ρ
  | .rows l => l
  | _ => []

/-- The rows of a list of deliveries. -/
def rowsOf (ps : List (Piece ρ ε)) : List ρ := ps.flatMap Piece.toRows

@[simp] theorem rowsOf_nil : rowsOf ([] : List (Piece ρ ε)) = [] := rfl
@[simp] theorem rowsOf_rows (l : List ρ) (ps : List (Piece ρ ε)) :
    rowsOf (.rows l :: ps) = l ++ rowsOf ps := rfl
@[simp] theorem rowsOf_fails (e : ε) (ps : List (Piece ρ ε)) :
    rowsOf (.fails e :: ps) = rowsOf ps := rfl
@[simp] theorem rowsOf_stuck (e : ε) (ps : List (Piece ρ ε)) :
    rowsOf (.stuck e :: ps) = rowsOf ps := rfl

@[simp] theorem rowsOf_map_rows (ls : List (List ρ)) :
    rowsOf (ls.map (.rows : List ρ → Piece ρ ε)) = ls.flatten := by
  induction ls with
  | nil => rfl
  | cons l ls ih => simp [ih]

/-- The rows of the deliveries that are rows, delivery by delivery. -/
def chunksOf (ps : List (Piece ρ ε)) : List (List ρ) :=
  ps.filterMap fun
    | .rows l => some l
    | _ => none

/-- All deliveries are rows. -/
def Unbroken (ps : List (Piece ρ ε)) : Prop := ps = (chunksOf ps).map .rows

@[simp] theorem chunksOf_map_rows (ls : List (List ρ)) :
    chunksOf (ls.map (.rows : List ρ → Piece ρ ε)) = ls := by
  induction ls with
  | nil => rfl
  | cons l ls ih => exact congrArg (l :: ·) ih

theorem unbroken_map_rows (ls : List (List ρ)) :
    Unbroken (ls.map (.rows : List ρ → Piece ρ ε)) := by
  rw [Unbroken, chunksOf_map_rows]

theorem rowsOf_eq_flatten (ps : List (Piece ρ ε)) : rowsOf ps = (chunksOf ps).flatten := by
  induction ps with
  | nil => rfl
  | cons p ps ih =>
    cases p with
    | rows l =>
      rw [rowsOf_rows, ih]
      rfl
    | fails e => exact ih
    | stuck e => exact ih

/-- Deliveries are rows up to the first that throws. -/
theorem rows_then_stop (ps : List (Piece ρ ε)) :
    ∃ (ls : List (List ρ)) (tail : List (Piece ρ ε)), ps = ls.map .rows ++ tail ∧
      (tail = [] ∨ (∃ e post, tail = .fails e :: post) ∨ ∃ e post, tail = .stuck e :: post) := by
  induction ps with
  | nil => exact ⟨[], [], rfl, Or.inl rfl⟩
  | cons p ps ih =>
    cases p with
    | rows l =>
      obtain ⟨ls, tail, rfl, h⟩ := ih
      exact ⟨l :: ls, tail, rfl, h⟩
    | fails e => exact ⟨[], _, rfl, Or.inr (Or.inl ⟨e, ps, rfl⟩)⟩
    | stuck e => exact ⟨[], _, rfl, Or.inr (Or.inr ⟨e, ps, rfl⟩)⟩

/-- How a request stops. -/
inductive Stop (ε : Type*)
  /-- it has its rows -/
  | filled
  /-- the source has no more deliveries -/
  | exhausted
  /-- a delivery threw -/
  | failed (e : ε)

/-- The outcome of a request: the rows offered, how it stopped, and where the cursor is. -/
structure Pull (ρ ε : Type*) where
  offered : List ρ
  stop : Stop ε
  current : List ρ
  ahead : List (Piece ρ ε)

/-- Rows offered before those of `r`. -/
def Pull.prepend (o : List ρ) (r : Pull ρ ε) : Pull ρ ε := { r with offered := o ++ r.offered }

@[simp] theorem Pull.prepend_offered (o : List ρ) (r : Pull ρ ε) :
    (r.prepend o).offered = o ++ r.offered := rfl
@[simp] theorem Pull.prepend_stop (o : List ρ) (r : Pull ρ ε) : (r.prepend o).stop = r.stop := rfl
@[simp] theorem Pull.prepend_current (o : List ρ) (r : Pull ρ ε) :
    (r.prepend o).current = r.current := rfl
@[simp] theorem Pull.prepend_ahead (o : List ρ) (r : Pull ρ ε) : (r.prepend o).ahead = r.ahead := rfl

section Requests

variable (c : ℕ) (live : ρ → Bool)

/-- The rest of a request for `c` live rows of which `s` have been taken: `current` is what is
left of the delivery being read, `ahead` the deliveries after it. -/
def pull (s : ℕ) (current : List ρ) (ahead : List (Piece ρ ε)) : Pull ρ ε :=
  if s < c then
    match current, ahead with
    | [], [] => ⟨[], .exhausted, [], []⟩
    | [], .fails e :: ps => ⟨[], .failed e, [], ps⟩
    | [], .stuck e :: ps => ⟨[], .failed e, [], .stuck e :: ps⟩
    | [], .rows l :: ps => pull s l ps
    | x :: xs, ps =>
      (pull (s + ((x :: xs).take (c - s)).countP live) ((x :: xs).drop c) ps).prepend
        ((x :: xs).take (c - s))
  else ⟨[], .filled, current, ahead⟩
termination_by (ahead.length, current.length)
decreasing_by
  · simp_wf
    left
    omega
  · simp_wf
    right
    omega

variable {c live}

theorem pull_of_le {s : ℕ} (h : c ≤ s) (cur : List ρ) (ps : List (Piece ρ ε)) :
    pull c live s cur ps = ⟨[], .filled, cur, ps⟩ := by
  rw [pull.eq_def, if_neg (by omega)]

theorem pull_nil {s : ℕ} (h : s < c) :
    pull c live s [] ([] : List (Piece ρ ε)) = ⟨[], .exhausted, [], []⟩ := by
  rw [pull.eq_def, if_pos h]

theorem pull_fails {s : ℕ} (h : s < c) (e : ε) (ps : List (Piece ρ ε)) :
    pull c live s [] (.fails e :: ps) = ⟨[], .failed e, [], ps⟩ := by
  rw [pull.eq_def, if_pos h]

theorem pull_stuck {s : ℕ} (h : s < c) (e : ε) (ps : List (Piece ρ ε)) :
    pull c live s [] (.stuck e :: ps) = ⟨[], .failed e, [], .stuck e :: ps⟩ := by
  rw [pull.eq_def, if_pos h]

theorem pull_rows {s : ℕ} (h : s < c) (l : List ρ) (ps : List (Piece ρ ε)) :
    pull c live s [] (.rows l :: ps) = pull c live s l ps := by
  rw [pull.eq_def, if_pos h]

theorem pull_current {s : ℕ} (h : s < c) {cur : List ρ} (hcur : cur ≠ [])
    (ps : List (Piece ρ ε)) :
    pull c live s cur ps =
      (pull c live (s + (cur.take (c - s)).countP live) (cur.drop c) ps).prepend
        (cur.take (c - s)) := by
  cases cur with
  | nil => exact absurd rfl hcur
  | cons x xs => rw [pull.eq_def, if_pos h]

variable (c live) in
/-- Induction along a request: one case for each way a round can go. -/
theorem pull_induct {motive : ℕ → List ρ → List (Piece ρ ε) → Prop}
    (filled : ∀ s cur ps, c ≤ s → motive s cur ps)
    (nil : ∀ s, s < c → motive s [] [])
    (fails : ∀ s e ps, s < c → motive s [] (.fails e :: ps))
    (stuck : ∀ s e ps, s < c → motive s [] (.stuck e :: ps))
    (rows : ∀ s l ps, s < c → motive s l ps → motive s [] (.rows l :: ps))
    (current : ∀ s cur ps, s < c → cur ≠ [] →
      motive (s + (cur.take (c - s)).countP live) (cur.drop c) ps → motive s cur ps)
    (s : ℕ) (cur : List ρ) (ps : List (Piece ρ ε)) : motive s cur ps := by
  induction s, cur, ps using pull.induct c live with
  | case1 s h => exact nil s h
  | case2 s h e ps => exact fails s e ps h
  | case3 s h e ps => exact stuck s e ps h
  | case4 s h l ps ih => exact rows s l ps h ih
  | case5 s h x xs ps ih => exact current s (x :: xs) ps h (by simp) ih
  | case6 s cur ps h => exact filled s cur ps (by omega)

variable (c live) in
/-- The live rows taken by a request that wanted `c` of them. -/
theorem pull_scanned (s : ℕ) (hs : s ≤ c) (cur : List ρ) (ps : List (Piece ρ ε)) :
    let r := pull c live s cur ps
    s + r.offered.countP live ≤ c ∧
      (r.stop = .filled ↔ s + r.offered.countP live = c) := by
  induction s, cur, ps using pull_induct c live with
  | filled s cur ps h =>
    obtain rfl : s = c := by omega
    simp [pull_of_le h]
  | nil s h => simp [pull_nil h]; omega
  | fails s e ps h => simp [pull_fails h]; omega
  | stuck s e ps h => simp [pull_stuck h]; omega
  | rows s l ps h ih => rw [pull_rows h]; exact ih hs
  | current s cur ps h hcur ih =>
    have hle : s + (cur.take (c - s)).countP live ≤ c := by
      have h1 := List.countP_le_length (p := live) (l := cur.take (c - s))
      have h2 := List.length_take_le (c - s) cur
      omega
    obtain ⟨h1, h2⟩ := ih hle
    rw [pull_current h hcur]
    simp only [Pull.prepend_offered, Pull.prepend_stop, List.countP_append]
    rw [← Nat.add_assoc]
    exact ⟨h1, h2⟩

variable (c live) in
/-- The deliveries a request consumes, by the way it stops. -/
theorem pull_ahead (s : ℕ) (cur : List ρ) (ps : List (Piece ρ ε)) :
    let r := pull c live s cur ps
    match r.stop with
    | .filled => ∃ pre : List (List ρ), ps = pre.map .rows ++ r.ahead
    | .exhausted => (∃ pre : List (List ρ), ps = pre.map .rows) ∧ r.current = [] ∧ r.ahead = []
    | .failed e => r.current = [] ∧ ∃ pre : List (List ρ),
        ps = pre.map .rows ++ .fails e :: r.ahead ∨
          ∃ post, ps = pre.map .rows ++ .stuck e :: post ∧ r.ahead = .stuck e :: post := by
  induction s, cur, ps using pull_induct c live with
  | filled s cur ps h => rw [pull_of_le h]; exact ⟨[], rfl⟩
  | nil s h => rw [pull_nil h]; exact ⟨⟨[], rfl⟩, rfl, rfl⟩
  | fails s e ps h => rw [pull_fails h]; exact ⟨rfl, [], Or.inl rfl⟩
  | stuck s e ps h => rw [pull_stuck h]; exact ⟨rfl, [], Or.inr ⟨ps, rfl, rfl⟩⟩
  | rows s l ps h ih =>
    rw [pull_rows h]
    generalize pull c live s l ps = r at ih ⊢
    obtain ⟨offered, stop, current, ahead⟩ := r
    cases stop with
    | filled =>
      obtain ⟨pre, rfl⟩ := ih
      exact ⟨l :: pre, rfl⟩
    | exhausted =>
      obtain ⟨⟨pre, rfl⟩, h1, h2⟩ := ih
      exact ⟨⟨l :: pre, rfl⟩, h1, h2⟩
    | failed e =>
      obtain ⟨h1, pre, rfl | ⟨post, rfl, h2⟩⟩ := ih
      · exact ⟨h1, l :: pre, Or.inl rfl⟩
      · exact ⟨h1, l :: pre, Or.inr ⟨post, rfl, h2⟩⟩
  | current s cur ps h hcur ih => rw [pull_current h hcur]; exact ih

variable (c live) in
/-- A request reorders nothing and repeats nothing. -/
theorem pull_sublist (s : ℕ) (cur : List ρ) (ps : List (Piece ρ ε)) :
    let r := pull c live s cur ps
    (r.offered ++ (r.current ++ rowsOf r.ahead)).Sublist (cur ++ rowsOf ps) := by
  induction s, cur, ps using pull_induct c live with
  | filled s cur ps h => simp [pull_of_le h]
  | nil s h => simp [pull_nil h]
  | fails s e ps h => simp [pull_fails h]
  | stuck s e ps h => simp [pull_stuck h]
  | rows s l ps h ih => rw [pull_rows h]; simpa using ih
  | current s cur ps h hcur ih =>
    rw [pull_current h hcur]
    simp only [Pull.prepend_offered, Pull.prepend_current, Pull.prepend_ahead, List.append_assoc]
    have hcut : (cur.take (c - s) ++ cur.drop c).Sublist cur := by
      conv_rhs => rw [← List.take_append_drop (c - s) cur]
      refine (List.Sublist.refl _).append ?_
      rw [show cur.drop c = (cur.drop (c - s)).drop s by
        rw [List.drop_drop]; congr 1; omega]
      exact List.drop_sublist _ _
    refine ((List.Sublist.refl _).append ih).trans ?_
    rw [← List.append_assoc]
    exact hcut.append (List.Sublist.refl _)

/-! ### Rows stepped over -/

/-- In a piece `p` entered with `s` live rows taken, every block of `c` rows that is begun while
rows are still wanted holds no row that `keep` wants beyond those that are offered. -/
def SparesPiece (keep live : ρ → Bool) (c s : ℕ) (p : List ρ) : Prop :=
  ∀ k, k * c < p.length → s + (p.take (k * c)).countP live < c →
    ∀ x ∈ ((p.drop (k * c)).take c).drop (c - (s + (p.take (k * c)).countP live)), keep x = false

/-- The same for all the pieces up to the first that throws. -/
def Spares (keep live : ρ → Bool) (c : ℕ) : ℕ → List (Piece ρ ε) → Prop
  | s, .rows p :: ps => SparesPiece keep live c s p ∧ Spares keep live c (s + p.countP live) ps
  | _, _ => True

variable {keep : ρ → Bool}

@[simp] theorem sparesPiece_nil (s : ℕ) : SparesPiece keep live c s [] := by
  intro k hk
  simp at hk

theorem spares_of_le {s : ℕ} (h : c ≤ s) (ps : List (Piece ρ ε)) : Spares keep live c s ps := by
  induction ps generalizing s with
  | nil => trivial
  | cons p ps ih =>
    cases p with
    | rows p => exact ⟨fun k _ hlt => by omega, ih (by omega)⟩
    | fails e => trivial
    | stuck e => trivial

/-- A request for one live row passes over none: as soon as it has one it stops. -/
theorem spares_one (ps : List (Piece ρ ε)) : Spares live live 1 0 ps := by
  have hpiece : ∀ (p : List ρ) (s : ℕ), SparesPiece live live 1 s p := by
    intro p s k _ hlt x hx
    rw [show 1 - (s + (p.take (k * 1)).countP live) = 1 by omega] at hx
    rw [List.drop_eq_nil_of_le (List.length_take_le _ _)] at hx
    cases hx
  have hall : ∀ s, Spares live live 1 s ps := by
    induction ps with
    | nil => exact fun _ => trivial
    | cons p ps ih =>
      intro s
      cases p with
      | rows p => exact ⟨hpiece p s, ih _⟩
      | fails e => trivial
      | stuck e => trivial
  exact hall 0

theorem countP_eq_zero_of_keep (hlive : ∀ x, live x = true → keep x = true) {l : List ρ}
    (h : ∀ x ∈ l, keep x = false) : l.countP live = 0 := by
  rw [List.countP_eq_zero]
  intro x hx hl
  have := h x hx
  rw [hlive x hl] at this
  cases this

/-- The first block of a piece, and the piece after its first `c` rows. -/
theorem sparesPiece_cut (hlive : ∀ x, live x = true → keep x = true) {s : ℕ} (hs : s < c)
    {p : List ρ} (hp : p ≠ []) :
    SparesPiece keep live c s p ↔
      (∀ x ∈ (p.take c).drop (c - s), keep x = false) ∧
        SparesPiece keep live c (s + (p.take (c - s)).countP live) (p.drop c) := by
  -- without a wanted row among those stepped over, the first block has the live rows offered
  have hcount : (∀ x ∈ (p.take c).drop (c - s), keep x = false) →
      (p.take c).countP live = (p.take (c - s)).countP live := by
    intro h
    have hsplit : (p.take c) = p.take (c - s) ++ (p.take c).drop (c - s) := by
      conv_lhs => rw [← List.take_append_drop (c - s) (p.take c)]
      rw [List.take_take, min_eq_left (by omega)]
    have hz : ((p.take c).drop (c - s)).countP live = 0 := countP_eq_zero_of_keep hlive h
    rw [hsplit, List.countP_append, hz, Nat.add_zero]
  have hshift : ∀ k, (∀ x ∈ (p.take c).drop (c - s), keep x = false) →
      s + (p.take ((k + 1) * c)).countP live =
        s + (p.take (c - s)).countP live + ((p.drop c).take (k * c)).countP live := by
    intro k h
    rw [show (k + 1) * c = c + k * c by ring, List.take_add, List.countP_append, hcount h]
    omega
  constructor
  · intro h
    have h0 : ∀ x ∈ (p.take c).drop (c - s), keep x = false := by
      have hlen : 0 < p.length := List.length_pos_iff.2 hp
      simpa using h 0 (by simpa using hlen) (by simpa using hs)
    refine ⟨h0, fun k hk hlt x hx => ?_⟩
    have hk' : (k + 1) * c < p.length := by
      rw [List.length_drop] at hk
      rw [show (k + 1) * c = c + k * c by ring]
      omega
    refine h (k + 1) hk' (by rw [hshift k h0]; exact hlt) x ?_
    rw [hshift k h0, show (k + 1) * c = c + k * c by ring, ← List.drop_drop]
    exact hx
  · rintro ⟨h0, h⟩ k hk hlt x hx
    cases k with
    | zero => exact h0 x (by simpa using hx)
    | succ k =>
      have hk' : k * c < (p.drop c).length := by
        rw [show (k + 1) * c = c + k * c by ring] at hk
        rw [List.length_drop]
        omega
      rw [hshift k h0] at hlt hx
      rw [show (k + 1) * c = c + k * c by ring, ← List.drop_drop] at hx
      exact h k hk' hlt x hx

variable (c live keep) in
/-- A request passes over no row that `keep` wants exactly when the pieces spare them. -/
theorem pull_filter_eq_iff (hlive : ∀ x, live x = true → keep x = true) (s : ℕ)
    (cur : List ρ) (ps : List (Piece ρ ε)) :
    let r := pull c live s cur ps
    (r.offered ++ (r.current ++ rowsOf r.ahead)).filter keep = (cur ++ rowsOf ps).filter keep ↔
      Spares keep live c s (.rows cur :: ps) := by
  induction s, cur, ps using pull_induct c live with
  | filled s cur ps h => simp [pull_of_le h, spares_of_le h]
  | nil s h => simp [pull_nil h, Spares]
  | fails s e ps h => simp [pull_fails h, Spares]
  | stuck s e ps h => simp [pull_stuck h, Spares]
  | rows s l ps h ih =>
    rw [pull_rows h]
    simpa [Spares] using ih
  | current s cur ps h hcur ih =>
    rw [pull_current h hcur]
    simp only [Pull.prepend_offered, Pull.prepend_current, Pull.prepend_ahead, List.append_assoc]
    have hsub := (pull_sublist c live (s + (cur.take (c - s)).countP live)
      (cur.drop c) ps).filter keep
    simp only at ih hsub
    set r := pull c live (s + (cur.take (c - s)).countP live) (cur.drop c) ps
    set skipped := (cur.take c).drop (c - s)
    have hcut : cur = cur.take (c - s) ++ (skipped ++ cur.drop c) := by
      conv_lhs => rw [← List.take_append_drop c cur, ← List.take_append_drop (c - s) (cur.take c)]
      rw [List.take_take, min_eq_left (by omega), List.append_assoc]
    have hgoal : (cur.take (c - s) ++ (r.offered ++ (r.current ++ rowsOf r.ahead))).filter keep =
          (cur ++ rowsOf ps).filter keep ↔
        (r.offered ++ (r.current ++ rowsOf r.ahead)).filter keep =
          skipped.filter keep ++ (cur.drop c ++ rowsOf ps).filter keep := by
      have hrows : (cur ++ rowsOf ps).filter keep = (cur.take (c - s)).filter keep ++
          (skipped.filter keep ++ (cur.drop c ++ rowsOf ps).filter keep) := by
        conv_lhs => rw [hcut]
        simp only [List.filter_append, List.append_assoc]
      rw [hrows, List.filter_append, List.append_cancel_left_eq]
    rw [hgoal]
    -- the rows offered later are a sublist of those behind the block
    have hskip : (r.offered ++ (r.current ++ rowsOf r.ahead)).filter keep =
          skipped.filter keep ++ (cur.drop c ++ rowsOf ps).filter keep ↔
        skipped.filter keep = [] ∧ (r.offered ++ (r.current ++ rowsOf r.ahead)).filter keep =
          (cur.drop c ++ rowsOf ps).filter keep := by
      constructor
      · intro heq
        have hlen := hsub.length_le
        rw [heq, List.length_append] at hlen
        have hnil : skipped.filter keep = [] := List.length_eq_zero_iff.1 (by omega)
        rw [hnil] at heq
        exact ⟨hnil, heq⟩
      · rintro ⟨hnil, heq⟩
        rw [hnil, heq, List.nil_append]
    rw [hskip, ih, List.filter_eq_nil_iff]
    simp only [Spares, Bool.not_eq_true]
    rw [sparesPiece_cut hlive h hcur, and_assoc]
    refine and_congr_right fun h0 => and_congr_right fun _ => ?_
    have : s + (cur.take (c - s)).countP live + (cur.drop c).countP live =
        s + cur.countP live := by
      have hz : skipped.countP live = 0 := countP_eq_zero_of_keep hlive h0
      conv_rhs => rw [hcut, List.countP_append, List.countP_append, hz]
      omega
    rw [this]

end Requests

/-! ### Sources read to their end -/

section Vectors

variable (c : ℕ) (live : ρ → Bool)

/-- The live rows the running request has taken once a piece of at most `c` rows is read; a
request that has its rows is followed by a new one. -/
def advance (s : ℕ) (p : List ρ) : ℕ :=
  if s + (p.take (c - s)).countP live = c then 0 else s + (p.take (c - s)).countP live

/-- The rows offered when request follows request to the end of the pieces. -/
def kept : ℕ → List (List ρ) → List ρ
  | _, [] => []
  | s, p :: ps => p.take (c - s) ++ kept (advance c live s p) ps

/-- The rows stepped over when request follows request to the end of the pieces. -/
def lost : ℕ → List (List ρ) → List ρ
  | _, [] => []
  | s, p :: ps => p.drop (c - s) ++ lost (advance c live s p) ps

variable {c live}

variable (live) in
theorem take_countP_le {s : ℕ} (hs : s ≤ c) (p : List ρ) :
    s + (p.take (c - s)).countP live ≤ c := by
  have h1 := List.countP_le_length (p := live) (l := p.take (c - s))
  have h2 := List.length_take_le (c - s) p
  omega

theorem advance_lt {s : ℕ} (hs : s < c) (p : List ρ) : advance c live s p < c := by
  have := take_countP_le live hs.le p
  unfold advance
  split_ifs <;> omega

variable (c live) in
/-- A source that offers nothing: every request stops there in the same way. -/
def StopsAt (tail : List (Piece ρ ε)) (stop : Stop ε) (left : List (Piece ρ ε)) : Prop :=
  stop ≠ .filled ∧ ∀ s, s < c → pull c live s [] tail = ⟨[], stop, [], left⟩

theorem stopsAt_nil : StopsAt c live ([] : List (Piece ρ ε)) .exhausted [] :=
  ⟨nofun, fun _ hs => pull_nil hs⟩

theorem stopsAt_fails (e : ε) (ps : List (Piece ρ ε)) :
    StopsAt c live (.fails e :: ps) (.failed e) ps :=
  ⟨nofun, fun _ hs => pull_fails hs e ps⟩

theorem stopsAt_stuck (e : ε) (ps : List (Piece ρ ε)) :
    StopsAt c live (.stuck e :: ps) (.failed e) (.stuck e :: ps) :=
  ⟨nofun, fun _ hs => pull_stuck hs e ps⟩

/-- One request, at the head of a piece of at most `c` rows: it has its rows before the pieces
end, or it offers what is left of them. -/
theorem pull_kept {tail : List (Piece ρ ε)} {stop : Stop ε} {left : List (Piece ρ ε)}
    (ht : StopsAt c live tail stop left) (s : ℕ) (hs : s < c) (ps : List (List ρ))
    (hps : ∀ p ∈ ps, p.length ≤ c) :
    (∃ offered pre qs, ps = pre ++ qs ∧ pre ≠ [] ∧
        pull c live s [] (ps.map .rows ++ tail) =
          ⟨offered, .filled, [], qs.map .rows ++ tail⟩ ∧
        offered ++ kept c live 0 qs = kept c live s ps) ∨
      pull c live s [] (ps.map .rows ++ tail) = ⟨kept c live s ps, stop, [], left⟩ := by
  induction ps generalizing s with
  | nil => exact Or.inr (ht.2 s hs)
  | cons p ps ih =>
    have hp : p.length ≤ c := hps p (by simp)
    have hps' : ∀ q ∈ ps, q.length ≤ c := fun q hq => hps q (by simp [hq])
    rw [List.map_cons, List.cons_append, pull_rows hs]
    by_cases hnil : p = []
    · subst hnil
      have hadv : advance c live s ([] : List ρ) = s := by
        simp [advance]
        omega
      simp only [kept, hadv, List.take_nil, List.nil_append]
      rcases ih s hs hps' with ⟨offered, pre, qs, rfl, -, h⟩ | h
      · exact Or.inl ⟨offered, [] :: pre, qs, rfl, by simp, h⟩
      · exact Or.inr h
    · have hdrop : p.drop c = [] := List.drop_eq_nil_iff.2 hp
      rw [pull_current hs hnil, hdrop]
      have hle := take_countP_le live hs.le p
      by_cases hfull : s + (p.take (c - s)).countP live = c
      · rw [pull_of_le hfull.ge]
        refine Or.inl ⟨p.take (c - s), [p], ps, rfl, by simp, ?_, ?_⟩
        · simp [Pull.prepend]
        · simp [kept, advance, hfull]
      · have hadv : advance c live s p = s + (p.take (c - s)).countP live := by
          rw [advance, if_neg hfull]
        simp only [kept, hadv]
        rcases ih (s + (p.take (c - s)).countP live) (by omega) hps' with
          ⟨offered, pre, qs, rfl, -, h, hkept⟩ | h
        · refine Or.inl ⟨p.take (c - s) ++ offered, p :: pre, qs, rfl, by simp, ?_, ?_⟩
          · rw [h]
            rfl
          · rw [← hkept, List.append_assoc]
        · refine Or.inr ?_
          rw [h]
          rfl

variable (live) in
/-- A request at the head of a piece ends at the head of a piece. -/
theorem pull_current_eq_nil {s : ℕ} (hs : s < c) {ps : List (Piece ρ ε)}
    (hps : ∀ p, Piece.rows p ∈ ps → p.length ≤ c) : (pull c live s [] ps).current = [] := by
  obtain ⟨ls, tail, rfl, htail⟩ := rows_then_stop ps
  have hls : ∀ p ∈ ls, p.length ≤ c := fun p hp =>
    hps p (List.mem_append_left _ (List.mem_map_of_mem hp))
  have hstop : ∃ stop left, StopsAt c live tail stop left := by
    rcases htail with rfl | ⟨e, post, rfl⟩ | ⟨e, post, rfl⟩
    · exact ⟨_, _, stopsAt_nil⟩
    · exact ⟨_, _, stopsAt_fails e post⟩
    · exact ⟨_, _, stopsAt_stuck e post⟩
  obtain ⟨stop, left, hstop⟩ := hstop
  rcases pull_kept hstop s hs ls hls with ⟨_, _, _, -, -, h, -⟩ | h
  · rw [h]
  · rw [h]

variable (c live) in
/-- What is offered and what is stepped over make up the pieces. -/
theorem kept_lost_perm (s : ℕ) (ps : List (List ρ)) :
    (kept c live s ps ++ lost c live s ps).Perm ps.flatten := by
  induction ps generalizing s with
  | nil => exact .nil
  | cons p ps ih =>
    rw [kept, lost, List.append_assoc, List.flatten_cons]
    conv_rhs => rw [← List.take_append_drop (c - s) p, List.append_assoc]
    refine List.Perm.append_left _ ((List.perm_append_comm_assoc _ _ _).trans ?_)
    exact (ih _).append_left _

variable (c live) in
theorem kept_sublist (s : ℕ) (ps : List (List ρ)) : (kept c live s ps).Sublist ps.flatten := by
  induction ps generalizing s with
  | nil => exact List.Sublist.refl _
  | cons p ps ih => exact (List.take_sublist _ _).append (ih _)

/-- The rows that `keep` wants are all offered exactly when none of them is stepped over. -/
theorem kept_filter_eq_iff (keep : ρ → Bool) (s : ℕ) (ps : List (List ρ)) :
    (kept c live s ps).filter keep = ps.flatten.filter keep ↔
      ∀ x ∈ lost c live s ps, keep x = false := by
  have hcount := (kept_lost_perm c live s ps).countP_eq keep
  rw [List.countP_append] at hcount
  have hsub := (kept_sublist c live s ps).filter keep
  have hzero : (lost c live s ps).countP keep = 0 ↔ ∀ x ∈ lost c live s ps, keep x = false := by
    simp [List.countP_eq_zero]
  rw [← hzero]
  constructor
  · intro h
    rw [List.countP_eq_length_filter, List.countP_eq_length_filter (l := ps.flatten), h] at hcount
    omega
  · intro h
    refine hsub.eq_of_length ?_
    rw [← List.countP_eq_length_filter, ← List.countP_eq_length_filter]
    omega

/-- The same for what the rows stand for: nothing is missing exactly when the rows stepped over
stand for nothing. -/
theorem kept_flatMap_eq_iff {β : Type*} (keep : ρ → Bool) (f : ρ → List β) (s : ℕ)
    (ps : List (List ρ)) :
    ((kept c live s ps).filter keep).flatMap f = (ps.flatten.filter keep).flatMap f ↔
      ∀ x ∈ lost c live s ps, keep x = true → f x = [] := by
  have hperm := ((kept_lost_perm c live s ps).filter keep).flatMap_right f
  rw [List.filter_append, List.flatMap_append] at hperm
  have hlen := hperm.length_eq
  rw [List.length_append] at hlen
  have hsub := ((kept_sublist c live s ps).filter keep).flatMap f
  have hnil : ((lost c live s ps).filter keep).flatMap f = [] ↔
      ∀ x ∈ lost c live s ps, keep x = true → f x = [] := by
    simp [List.flatMap_eq_nil_iff]
  rw [← hnil, ← List.length_eq_zero_iff]
  constructor
  · intro h
    rw [h] at hlen
    omega
  · intro h
    exact hsub.eq_of_length (by omega)

/-- Lists of sublists are equal when all of the sublists are. -/
theorem flatMap_eq_iff_of_sublist {β : Type*} {f g : ρ → List β} {l : List ρ}
    (h : ∀ x ∈ l, (f x).Sublist (g x)) : l.flatMap f = l.flatMap g ↔ ∀ x ∈ l, f x = g x := by
  induction l with
  | nil => simp
  | cons x l ih =>
    have hx := h x List.mem_cons_self
    have hl : ∀ y ∈ l, (f y).Sublist (g y) := fun y hy => h y (List.mem_cons_of_mem _ hy)
    rw [List.flatMap_cons, List.flatMap_cons, List.forall_mem_cons, ← ih hl]
    constructor
    · intro heq
      have hrest := (List.Sublist.flatMap_right l hl).length_le
      have hlen := congrArg List.length heq
      have hhead := hx.length_le
      rw [List.length_append, List.length_append] at hlen
      have hfx : f x = g x := hx.eq_of_length (by omega)
      rw [hfx] at heq
      exact ⟨hfx, List.append_cancel_left heq⟩
    · rintro ⟨h1, h2⟩
      rw [h1, h2]

/-- Where the live rows end up: no live row is stepped over exactly when, in each piece, the
rows beyond those still wanted by the request that reaches it are not live.  The requests take
`c` live rows each, so a piece is reached with the live rows before it, modulo `c`, taken. -/
theorem lost_live_iff (s : ℕ) (hs : s < c) (ps : List (List ρ)) :
    (∀ x ∈ lost c live s ps, live x = false) ↔
      ∀ pre p post, ps = pre ++ p :: post →
        ∀ x ∈ p.drop (c - (s + pre.flatten.countP live) % c), live x = false := by
  induction ps generalizing s with
  | nil => simp [lost]
  | cons p ps ih =>
    have hmod : s % c = s := Nat.mod_eq_of_lt hs
    -- a piece none of whose live rows is stepped over advances the request by all of them
    have hadv : (∀ x ∈ p.drop (c - s), live x = false) →
        advance c live s p = (s + p.countP live) % c := by
      intro h
      have hz : (p.drop (c - s)).countP live = 0 := by
        rw [List.countP_eq_zero]
        intro x hx
        simp [h x hx]
      have hp : p.countP live = (p.take (c - s)).countP live := by
        conv_lhs => rw [← List.take_append_drop (c - s) p]
        rw [List.countP_append, hz, Nat.add_zero]
      have hle := take_countP_le live hs.le p
      rw [hp]
      unfold advance
      split_ifs with hc
      · rw [hc, Nat.mod_self]
      · exact (Nat.mod_eq_of_lt (by omega)).symm
    have hih := ih (advance c live s p) (advance_lt hs p)
    simp only [lost, List.mem_append, or_imp, forall_and]
    constructor
    · rintro ⟨h1, h2⟩ pre q post heq x hx
      cases pre with
      | nil =>
        obtain ⟨rfl, rfl⟩ : p = q ∧ ps = post := by simpa using heq
        exact h1 x (by simpa [hmod] using hx)
      | cons r pre =>
        obtain ⟨rfl, rfl⟩ : p = r ∧ ps = pre ++ q :: post := by simpa using heq
        refine hih.1 h2 pre q post rfl x ?_
        rw [hadv h1, Nat.mod_add_mod]
        simpa [Nat.add_assoc] using hx
    · intro h
      have h1 : ∀ x ∈ p.drop (c - s), live x = false := by
        intro x hx
        exact h [] p ps rfl x (by simpa [hmod] using hx)
      refine ⟨h1, hih.2 ?_⟩
      rintro pre q post rfl x hx
      refine h (p :: pre) q post rfl x ?_
      rw [hadv h1, Nat.mod_add_mod] at hx
      simpa [Nat.add_assoc] using hx

end Vectors

end Stride
