import DuckIceberg.ReadRuns

/-!
# The slices of `ReadEntries`

What `ReadEntries` offers to its callback, round by round, for a callback that may be anything as
long as it returns at most the length of its slice.  A position is a number of deliveries still to
come with an offset into the chunk, and every slice starts at or behind the position of the reader and
stops at or before the next (`readRound_bounded`); the calls of a run then offer slices one behind the
other (`readEntries_bounded`).
-/

namespace DuckIceberg

open Strings

namespace ManifestReader

variable {σ τ : Type}

/-! ### Positions -/

/-- A slice that was offered to the callback, with the chunk it is of (the number of deliveries that
come after it) and the number of entries that were produced. -/
structure Slice where
  chunk : ℕ
  size : ℕ
  offset : ℕ
  toScan : ℕ
  produced : ℕ

/-- The slice is a part of its chunk, and not empty. -/
structure Slice.Inside (s : Slice) : Prop where
  offset_lt : s.offset < s.size
  nonempty : 0 < s.toScan
  stop_le : s.offset + s.toScan ≤ s.size
  produced_le : s.produced ≤ s.toScan

/-- A position: deliveries still to come, and an offset. -/
abbrev Pos := ℕ × ℕ

/-- The one position is not behind the other. -/
def Pos.Le (p q : Pos) : Prop := q.1 < p.1 ∨ q.1 = p.1 ∧ p.2 ≤ q.2

theorem Pos.Le.refl (p : Pos) : Pos.Le p p := Or.inr ⟨rfl, le_rfl⟩

theorem Pos.Le.trans {p q r : Pos} (h : Pos.Le p q) (h' : Pos.Le q r) : Pos.Le p r := by
  unfold Pos.Le at *
  omega

def Slice.start (s : Slice) : Pos := (s.chunk, s.offset)

def Slice.stop (s : Slice) : Pos := (s.chunk, s.offset + s.toScan)

theorem Slice.start_le_stop (s : Slice) : Pos.Le s.start s.stop :=
  Or.inr ⟨rfl, Nat.le_add_right _ _⟩

/-- From one position to another, one slice behind the other. -/
def Ascends : Pos → List Slice → Pos → Prop
  | p, [], q => Pos.Le p q
  | p, s :: ss, q => Pos.Le p s.start ∧ Ascends s.stop ss q

theorem Ascends.of_le {p p' q : Pos} (hle : Pos.Le p p') : ∀ {ss : List Slice}, Ascends p' ss q →
    Ascends p ss q
  | [], h => hle.trans h
  | _ :: _, h => ⟨hle.trans h.1, h.2⟩

theorem Ascends.append {p q r : Pos} {ss ss' : List Slice} (h : Ascends p ss q)
    (h' : Ascends q ss' r) : Ascends p (ss ++ ss') r := by
  induction ss generalizing p with
  | nil => exact h'.of_le h
  | cons s ss ih => exact ⟨h.1, ih h.2⟩

theorem Ascends.le_right {p q r : Pos} {ss : List Slice} (h : Ascends p ss q) (hle : Pos.Le q r) :
    Ascends p ss r := by
  have happend := h.append (show Ascends q [] r from hle)
  rwa [List.append_nil] at happend

theorem Ascends.le_start {p q : Pos} {ss : List Slice} (h : Ascends p ss q) :
    ∀ s ∈ ss, Pos.Le p s.start := by
  induction ss generalizing p with
  | nil => exact nofun
  | cons s ss ih =>
    rintro t (_ | ⟨_, ht⟩)
    · exact h.1
    · exact (h.1.trans s.start_le_stop).trans (ih h.2 t ht)

/-- Slices of one chunk are disjoint, and a later one is behind an earlier one. -/
theorem Ascends.pairwise {p q : Pos} {ss : List Slice} (h : Ascends p ss q) :
    ss.Pairwise fun s t => Pos.Le s.stop t.start := by
  induction ss generalizing p with
  | nil => exact List.Pairwise.nil
  | cons s ss ih => exact List.pairwise_cons.2 ⟨h.2.le_start, ih h.2⟩

/-- The position of a reader. -/
def pos (r : ManifestReader) : Pos := (r.stream.length, r.offset)

/-! ### Rounds -/

/-- A callback that returns at most the length of the slice it is given. -/
def Bounded (callback : Callback σ) : Prop :=
  ∀ chunk offset count input acc, offset + count ≤ chunk.size →
    ∃ acc' produced, callback chunk offset count input acc = .ok (acc', produced) ∧ produced ≤ count

/-- The slice that a round offers, if it offers one. -/
def offered (count : ℕ) (callback : Callback σ) (st : ReadState σ) : List Slice :=
  if st.scanned < count then
    match st.reader.refill with
    | (.ok true, r) =>
      let toScan := min (r.chunk.size - r.offset) (count - st.scanned)
      [{ chunk := r.stream.length
         size := r.chunk.size
         offset := r.offset
         toScan
         produced :=
          match callback r.chunk r.offset toScan ⟨r.nameToVec, r.skipDeleted⟩ st.acc with
          | .ok (_, produced) => produced
          | .error _ => 0 }]
    | _ => []
  else []

/-- The states at the heads of the rounds of a call. -/
def rounds (r : ManifestReader) (count : ℕ) (callback : Callback σ) (acc : σ) :
    List (ReadState σ) :=
  if r.scan.isNone || r.finished then []
  else Loop.states (readRound count callback) r.readFuel ⟨r, 0, acc⟩

/-- The slices that a call offers. -/
def slices (r : ManifestReader) (count : ℕ) (callback : Callback σ) (acc : σ) : List Slice :=
  (r.rounds count callback acc).flatMap (offered count callback)

/-- What the head of a round can do. -/
theorem refill_cases {r : ManifestReader} (h : r.Reading) :
    (∃ r', r.refill = (.ok true, r') ∧ r'.Reading ∧ r'.offset < r'.chunk.size ∧
        Pos.Le r.pos r'.pos ∧ r'.weight ≤ r.weight ∧ ∀ n, r.NoWrap n → r'.NoWrap n) ∨
      (∃ r', r.refill = (.ok false, r') ∧ r'.Exhausted ∧ Pos.Le r.pos r'.pos) ∨
      ∃ e r', r.refill = (.error e, r') ∧ r'.Reading ∧ Pos.Le r.pos r'.pos := by
  obtain ⟨hfin, a, ha, haf⟩ := h
  have hstream : r.stream = a.stream := by simp [stream, ha]
  by_cases hlt : r.offset < r.chunk.size
  · refine Or.inl ⟨r, ?_, ⟨hfin, a, ha, haf⟩, hlt, Pos.Le.refl _, le_rfl, fun _ => id⟩
    rw [refill, if_neg (by omega)]
  have hle : r.chunk.size ≤ r.offset := by omega
  cases hst : a.stream with
  | nil =>
    refine Or.inr (Or.inl ⟨{ r with
        scan := some { a with finished := true }
        chunk := r.chunk.reset
        finished := true }, ?_, ⟨rfl, rfl, _, rfl, rfl, hst⟩, ?_⟩)
    · simp only [refill, if_pos hle, ha, AvroScan.getNext, hst]
      rfl
    · simp [pos, Pos.Le, stream, ha]
  | cons f fs =>
    have hnext : ∀ r' : ManifestReader, r'.stream = fs → Pos.Le r.pos r'.pos := by
      intro r' hr'
      refine Or.inl ?_
      simp [pos, hr', hstream, hst]
    cases hf : f r.chunk.types with
    | error e =>
      refine Or.inr (Or.inr ⟨e, { r with scan := some { a with stream := fs } }, ?_,
        ⟨hfin, _, rfl, haf⟩, hnext _ rfl⟩)
      simp only [refill, if_pos hle, ha, AvroScan.getNext, hst, hf]
    | ok b =>
      have hb : ¬ (r.chunk.fill b).size = 0 := by
        have hpos := b.size_pos
        simp only [DataChunk.fill_size]
        omega
      refine Or.inl ⟨{ r with
          scan := some { a with stream := fs }
          chunk := r.chunk.fill b
          offset := 0 }, ?_, ⟨hfin, _, rfl, haf⟩, b.size_pos, hnext _ rfl, ?_, ?_⟩
      · simp only [refill, if_pos hle, ha, AvroScan.getNext, hst, hf, if_neg hb]
      · have hsize := b.size_le
        simp only [weight, stream, ha, hst, Option.map_some, Option.getD_some, List.length_cons,
          DataChunk.fill_size, Nat.add_mul]
        omega
      · rintro n ⟨hn, -⟩
        exact ⟨hn, fun _ => by simpa using hn⟩

/-- What a round that goes round again does. -/
structure Advances (count : ℕ) (st : ReadState σ) (s : Slice) (st' : ReadState σ) : Prop where
  inside : s.Inside
  start : Pos.Le st.reader.pos s.start
  stop : Pos.Le s.stop st'.reader.pos
  scanned : st'.scanned = st.scanned + s.produced
  scanned_le : st'.scanned ≤ count
  reading : st'.reader.Reading
  noWrap : st'.reader.NoWrap count
  weight : st'.reader.weight < st.reader.weight

/-- What a round that leaves the loop does. -/
structure Leaves (count : ℕ) (st : ReadState σ) (out : Except Error ℕ × ManifestReader × σ) :
    Prop where
  pos : Pos.Le st.reader.pos out.2.1.pos
  scanned : ∀ n, out.1 = .ok n → n = st.scanned
  short : ∀ n, out.1 = .ok n → n < count → out.2.1.Exhausted
  reader : out.2.1.Reading ∨ out.2.1.Exhausted

/-- **One round** offers one slice and moves on behind it, or leaves the loop without one. -/
theorem readRound_bounded {count : ℕ} {callback : Callback σ} (hcb : Bounded callback)
    {st : ReadState σ} (hr : st.reader.Reading) (hn : st.reader.NoWrap count)
    (hle : st.scanned ≤ count) :
    match readRound count callback st with
    | .next st' => ∃ s, offered count callback st = [s] ∧ Advances count st s st'
    | .done out => offered count callback st = [] ∧ Leaves count st out := by
  by_cases hlt : st.scanned < count
  · rcases refill_cases hr with ⟨r, hrefill, hreading, hoff, hpos, hweight, hwrap⟩ |
      ⟨r, hrefill, hexhausted, hpos⟩ | ⟨e, r, hrefill, hreading, hpos⟩
    · have hn' := hwrap count hn
      obtain ⟨acc, produced, hproduced, hproduced_le⟩ := hcb r.chunk r.offset
        (min (r.chunk.size - r.offset) (count - st.scanned)) ⟨r.nameToVec, r.skipDeleted⟩ st.acc
        (by omega)
      have hsize := r.chunk.size_le
      have hoffset : idx (r.offset + count) = r.offset + count := idx_of_lt (hn'.2 hoff)
      have hscanned : idx (st.scanned + produced) = st.scanned + produced := by
        have hcount := hn'.1
        exact idx_of_lt (by omega)
      have hround : readRound count callback st =
          .next ⟨{ r with offset := r.offset + count }, st.scanned + produced, acc⟩ := by
        rw [readRound, if_pos hlt, hrefill]
        simp only [hproduced, hoffset, hscanned]
      have hoffered : offered count callback st = [⟨r.stream.length, r.chunk.size, r.offset,
          min (r.chunk.size - r.offset) (count - st.scanned), produced⟩] := by
        rw [offered, if_pos hlt, hrefill]
        simp only [hproduced]
      rw [hround]
      refine ⟨_, hoffered, ⟨hoff, by dsimp only; omega, by dsimp only; omega, hproduced_le⟩, hpos,
        Or.inr ⟨rfl, ?_⟩, rfl, by dsimp only; omega, hreading, ⟨hn'.1, fun h => ?_⟩, ?_⟩
      · show r.offset + min (r.chunk.size - r.offset) (count - st.scanned) ≤ r.offset + count
        omega
      · have h' : r.offset + count < r.chunk.size := h
        simp only [standardVectorSize] at hsize
        show r.offset + count + count < 2 ^ 64
        omega
      · refine lt_of_lt_of_le ?_ hweight
        show r.stream.length * (standardVectorSize + 1) + (r.chunk.size - (r.offset + count)) <
          r.stream.length * (standardVectorSize + 1) + (r.chunk.size - r.offset)
        omega
    · have hround : readRound count callback st = .done (.ok st.scanned, r, st.acc) := by
        rw [readRound, if_pos hlt, hrefill]
      have hoffered : offered count callback st = [] := by rw [offered, if_pos hlt, hrefill]
      rw [hround]
      refine ⟨hoffered, hpos, fun n h => ?_, fun _ _ _ => hexhausted, Or.inr hexhausted⟩
      exact (Except.ok.inj h).symm
    · have hround : readRound count callback st = .done (.error e, r, st.acc) := by
        rw [readRound, if_pos hlt, hrefill]
      have hoffered : offered count callback st = [] := by rw [offered, if_pos hlt, hrefill]
      rw [hround]
      exact ⟨hoffered, hpos, fun _ h => (by cases h), fun _ h => (by cases h), Or.inl hreading⟩
  · have hround : readRound count callback st = .done (.ok st.scanned, st.reader, st.acc) := by
      rw [readRound, if_neg hlt]
    have hoffered : offered count callback st = [] := by rw [offered, if_neg hlt]
    rw [hround]
    refine ⟨hoffered, Pos.Le.refl _, fun n h => (Except.ok.inj h).symm, fun n h hshort => ?_,
      Or.inl hr⟩
    have hn := Except.ok.inj h
    omega

/-! ### Calls -/

/-- What holds at the head of the loop, after these slices. -/
structure SliceInv (p : Pos) (count : ℕ) (log : List Slice) (st : ReadState σ) : Prop where
  reading : st.reader.Reading
  noWrap : st.reader.NoWrap count
  scanned_le : st.scanned ≤ count
  scanned : st.scanned = (log.map Slice.produced).sum
  inside : ∀ s ∈ log, s.Inside
  ascends : Ascends p log st.reader.pos

/-- What a call leaves, after these slices. -/
structure SlicePost (p : Pos) (count : ℕ) (log : List Slice)
    (out : Except Error ℕ × ManifestReader × σ) : Prop where
  inside : ∀ s ∈ log, s.Inside
  ascends : Ascends p log out.2.1.pos
  sum : ∀ n, out.1 = .ok n → n = (log.map Slice.produced).sum ∧ n ≤ count
  short : ∀ n, out.1 = .ok n → n < count → out.2.1.Exhausted
  reader : out.2.1.Reading ∨ out.2.1.Exhausted

theorem Ascends.concat {p q r : Pos} {log : List Slice} {s : Slice} (h : Ascends p log q)
    (hstart : Pos.Le q s.start) (hstop : Pos.Le s.stop r) : Ascends p (log ++ [s]) r :=
  h.append ⟨hstart, hstop⟩

theorem SliceInv.done {p : Pos} {count : ℕ} {callback : Callback σ} (hcb : Bounded callback)
    {log : List Slice} {st : ReadState σ} {out : Except Error ℕ × ManifestReader × σ}
    (h : SliceInv p count log st) (hb : readRound count callback st = .done out) :
    SlicePost p count (log ++ offered count callback st) out := by
  have hround := readRound_bounded hcb h.reading h.noWrap h.scanned_le
  rw [hb] at hround
  obtain ⟨hoffered, hleaves⟩ := hround
  rw [hoffered, List.append_nil]
  refine ⟨h.inside, h.ascends.le_right hleaves.pos, fun n hn => ?_, hleaves.short, hleaves.reader⟩
  rw [hleaves.scanned n hn]
  exact ⟨h.scanned, h.scanned_le⟩

theorem SliceInv.next {p : Pos} {count : ℕ} {callback : Callback σ} (hcb : Bounded callback)
    {log : List Slice} {st st' : ReadState σ} (h : SliceInv p count log st)
    (hb : readRound count callback st = .next st') :
    SliceInv p count (log ++ offered count callback st) st' ∧
      st'.reader.weight < st.reader.weight := by
  have hround := readRound_bounded hcb h.reading h.noWrap h.scanned_le
  rw [hb] at hround
  obtain ⟨t, hoffered, hadvances⟩ := hround
  rw [hoffered]
  refine ⟨⟨hadvances.reading, hadvances.noWrap, hadvances.scanned_le, ?_, ?_,
    h.ascends.concat hadvances.start hadvances.stop⟩, hadvances.weight⟩
  · rw [hadvances.scanned, h.scanned]
    simp
  · intro u hu
    rcases List.mem_append.1 hu with hu | hu
    · exact h.inside u hu
    · rw [List.mem_singleton.1 hu]
      exact hadvances.inside

/-- What a call does, whatever it is given to read. -/
structure InBounds (r : ManifestReader) (count : ℕ) (callback : Callback σ) (acc : σ) : Prop where
  terminates : (r.scan.isNone || r.finished) = true ∨
    ∃ out, Loop.run (readRound count callback) r.readFuel ⟨r, 0, acc⟩ = some out
  scanned_le : ∀ st ∈ r.rounds count callback acc, st.scanned ≤ count
  post : SlicePost r.pos count (r.slices count callback acc) (r.readEntries count callback acc)

/-- **One call** of a reader that has something to read ends, and its slices are one behind the
other. -/
theorem inBounds_of_reading {count : ℕ} {callback : Callback σ} (hcb : Bounded callback)
    {r : ManifestReader} (hr : r.Reading) (hn : r.NoWrap count) (acc : σ) :
    InBounds r count callback acc := by
  obtain ⟨hfin, s, hs, -⟩ := id hr
  have hopen : ¬ (r.scan.isNone || r.finished) = true := by simp [hs, hfin]
  have hfuel : r.weight < r.readFuel := by
    have hsize := r.chunk.size_le
    simp only [weight, stream, readFuel, hs, Option.map_some, Option.getD_some, Nat.add_mul]
    omega
  obtain ⟨out, hout, hpost⟩ := Loop.run_log (offered count callback) (SliceInv r.pos count)
    (fun st : ReadState σ => st.reader.weight) (SlicePost r.pos count)
    (fun _ _ _ => SliceInv.done hcb) (fun _ _ _ => SliceInv.next hcb)
    r.readFuel [] ⟨r, 0, acc⟩ ⟨hr, hn, Nat.zero_le _, rfl, by simp, Pos.Le.refl _⟩ hfuel
  refine ⟨Or.inr ⟨out, hout⟩, ?_, ?_⟩
  · rw [rounds, if_neg hopen]
    intro st hst
    refine (Loop.forall_states (fun st : ReadState σ => st.reader.Reading ∧ st.reader.NoWrap count ∧
      st.scanned ≤ count) (fun st st' h hb => ?_) r.readFuel ⟨hr, hn, Nat.zero_le _⟩ st hst).2.2
    have hround := readRound_bounded hcb h.1 h.2.1 h.2.2
    rw [hb] at hround
    obtain ⟨t, -, hadvances⟩ := hround
    exact ⟨hadvances.reading, hadvances.noWrap, hadvances.scanned_le⟩
  · rw [readEntries, if_neg hopen, hout, slices, rounds, if_neg hopen]
    exact hpost

theorem inBounds_of_exhausted {r : ManifestReader} (h : r.Exhausted) (count : ℕ)
    (callback : Callback σ) (acc : σ) : InBounds r count callback acc := by
  have hclosed : (r.scan.isNone || r.finished) = true := by simp [h.1]
  have hrounds : r.rounds count callback acc = [] := if_pos hclosed
  refine ⟨Or.inl hclosed, by rw [hrounds]; exact nofun, ?_⟩
  rw [slices, hrounds, readEntries_exhausted h]
  refine ⟨nofun, Pos.Le.refl _, fun n hn => ?_, fun _ _ _ => h, Or.inr h⟩
  obtain rfl := Except.ok.inj hn
  exact ⟨rfl, Nat.zero_le _⟩

/-! ### Runs -/

/-- The reader and the captured variables after these calls of `ReadEntries`. -/
def afterCalls (s : ManifestReader × σ) (calls : List (ℕ × Callback σ)) : ManifestReader × σ :=
  calls.foldl (fun s call => (s.1.readEntries call.1 call.2 s.2).2) s

/-- What each of these calls returns, with the slices it offers. -/
def callTrace : ManifestReader × σ → List (ℕ × Callback σ) → List (Except Error ℕ × List Slice)
  | _, [] => []
  | s, (count, callback) :: calls =>
    ((s.1.readEntries count callback s.2).1, s.1.slices count callback s.2) ::
      callTrace (s.1.readEntries count callback s.2).2 calls

/-- Every callback is bounded, and no sum of the cursor and a count wraps. -/
def Orderly : ManifestReader × σ → List (ℕ × Callback σ) → Prop
  | _, [] => True
  | s, (count, callback) :: calls =>
    Bounded callback ∧ s.1.NoWrap count ∧ Orderly (s.1.readEntries count callback s.2).2 calls

/-- A call on a reader that is reading or at its end. -/
theorem inBounds_of_orderly {s : ManifestReader × σ} {count : ℕ} {callback : Callback σ}
    {calls : List (ℕ × Callback σ)} (hs : s.1.Reading ∨ s.1.Exhausted)
    (h : Orderly s ((count, callback) :: calls)) : InBounds s.1 count callback s.2 := by
  rcases hs with hs | hs
  · exact inBounds_of_reading h.1 hs h.2.1 s.2
  · exact inBounds_of_exhausted hs count callback s.2

/-- A reader at its end offers nothing more. -/
theorem callTrace_exhausted {s : ManifestReader × σ} (h : s.1.Exhausted)
    (calls : List (ℕ × Callback σ)) :
    callTrace s calls = List.replicate calls.length (.ok 0, []) ∧ afterCalls s calls = s := by
  induction calls with
  | nil => exact ⟨rfl, rfl⟩
  | cons call calls ih =>
    obtain ⟨count, callback⟩ := call
    have hclosed : (s.1.scan.isNone || s.1.finished) = true := by simp [h.1]
    have hslices : s.1.slices count callback s.2 = [] := by rw [slices, rounds, if_pos hclosed]; rfl
    have hread : s.1.readEntries count callback s.2 = (.ok 0, s) := readEntries_exhausted h ..
    constructor
    · rw [callTrace, hread, hslices, ih.1]
      rfl
    · rw [afterCalls, List.foldl_cons, hread]
      exact ih.2

/-- The slices of all the calls are one behind the other. -/
theorem callTrace_ascends {s : ManifestReader × σ} {calls : List (ℕ × Callback σ)}
    (hs : s.1.Reading ∨ s.1.Exhausted) (h : Orderly s calls) :
    Ascends s.1.pos ((callTrace s calls).flatMap Prod.snd) (afterCalls s calls).1.pos := by
  induction calls generalizing s with
  | nil => exact Pos.Le.refl _
  | cons call calls ih =>
    obtain ⟨count, callback⟩ := call
    have hpost := (inBounds_of_orderly hs h).post
    exact hpost.ascends.append (ih hpost.reader h.2.2)

/-- A run goes on from what its first calls leave. -/
theorem Orderly.split {s : ManifestReader × σ} {calls calls' : List (ℕ × Callback σ)}
    (hs : s.1.Reading ∨ s.1.Exhausted) (h : Orderly s (calls ++ calls')) :
    ((afterCalls s calls).1.Reading ∨ (afterCalls s calls).1.Exhausted) ∧
      Orderly (afterCalls s calls) calls' := by
  induction calls generalizing s with
  | nil => exact ⟨hs, h⟩
  | cons call calls ih =>
    obtain ⟨count, callback⟩ := call
    exact ih (inBounds_of_orderly hs h).post.reader h.2.2

/-- **`ReadEntries` stays in bounds and ends**, in every call of every run after `Initialize`: the
variables never pass `count`, every slice is a part of its chunk that is not empty, slices of one chunk
come one behind the other, and the result is the sum of what the callback returned.  It is less than
`count` only at the end of the scan; then the reader is finished, and no later call reads anything. -/
theorem readEntries_bounded (r : ManifestReader) {scan : AvroScan} (hscan : scan.finished = false)
    (acc : σ) {calls : List (ℕ × Callback σ)}
    (horderly : Orderly ((r.initializeWith scan).2, acc) calls) :
    ((callTrace ((r.initializeWith scan).2, acc) calls).flatMap Prod.snd).Pairwise
        (fun s t => t.chunk < s.chunk ∨ t.chunk = s.chunk ∧ s.offset + s.toScan ≤ t.offset) ∧
      ∀ before count callback after, calls = before ++ (count, callback) :: after →
        let s := afterCalls ((r.initializeWith scan).2, acc) before
        ((s.1.scan.isNone || s.1.finished) = true ∨ ∃ out,
            Loop.run (readRound count callback) s.1.readFuel ⟨s.1, 0, s.2⟩ = some out) ∧
          (∀ st ∈ s.1.rounds count callback s.2, st.scanned ≤ count) ∧
          (∀ t ∈ s.1.slices count callback s.2, t.Inside) ∧
          ∀ n, (s.1.readEntries count callback s.2).1 = .ok n →
            n = ((s.1.slices count callback s.2).map Slice.produced).sum ∧ n ≤ count ∧
              (n < count → (s.1.readEntries count callback s.2).2.1.isFinished = true ∧
                ∀ later, callTrace (s.1.readEntries count callback s.2).2 later =
                    List.replicate later.length (.ok 0, []) ∧
                  afterCalls (s.1.readEntries count callback s.2).2 later =
                    (s.1.readEntries count callback s.2).2) := by
  obtain ⟨-, hopened, hfinished, -⟩ := initializeWith_types r scan
  have hstart : (r.initializeWith scan).2.Reading ∨ (r.initializeWith scan).2.Exhausted :=
    Or.inl ⟨hfinished, scan, hopened, hscan⟩
  refine ⟨(callTrace_ascends (s := (_, acc)) hstart horderly).pairwise, ?_⟩
  rintro before count callback after rfl
  obtain ⟨hs, hrest⟩ := Orderly.split (s := (_, acc)) hstart horderly
  obtain ⟨hends, hle, hpost⟩ := inBounds_of_orderly hs hrest
  refine ⟨hends, hle, hpost.inside, fun n hn => ?_⟩
  obtain ⟨hsum, hcount⟩ := hpost.sum n hn
  refine ⟨hsum, hcount, fun hshort => ?_⟩
  have hexhausted := hpost.short n hn hshort
  exact ⟨isFinished_of_exhausted hexhausted, callTrace_exhausted hexhausted⟩

/-- A scan of one chunk of three rows. -/
def threeRows : AvroScan where
  columns := []
  stream := [fun _ => .ok ⟨[], 3, by decide, by decide⟩]

/-- A callback that counts the rows it is given, and produces them all. -/
def countRows : Callback ℕ := fun _ _ count _ acc => .ok (acc + count, count)

theorem countRows_bounded : Bounded countRows :=
  fun _ _ count _ acc _ => ⟨acc + count, count, rfl, le_rfl⟩

/-- Three calls that read the three rows two at a time. -/
theorem readEntries_bounded_threeRows :
    ((callTrace (((make icebergManifestEntryV1).initializeWith threeRows).2, 0)
      (List.replicate 3 (2, countRows))).flatMap Prod.snd).Pairwise
        (fun s t => t.chunk < s.chunk ∨ t.chunk = s.chunk ∧ s.offset + s.toScan ≤ t.offset) :=
  (readEntries_bounded (make icebergManifestEntryV1) (rfl : threeRows.finished = false) 0
    (show Orderly _ (List.replicate 3 (2, countRows)) from
    ⟨countRows_bounded, ⟨by decide, by decide +kernel⟩, countRows_bounded,
      ⟨by decide, by decide +kernel⟩, countRows_bounded, ⟨by decide, by decide +kernel⟩,
      trivial⟩)).1

end ManifestReader

end DuckIceberg
