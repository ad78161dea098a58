import Mathlib.Data.List.Basic

/-!
# A buffered reader in front of a pipe

A reader hands out the symbols of a stream one at a time.  When its buffer is empty it fetches a
batch, whatever the pipe has to give: a write, several of them, or part of one.  What has not been
handed out stays in the buffer.

A computation that reads through `next` only is `Steady`: what it computes, and how far it gets,
depends on the stream and not on the batches.  What depends on the batches is how much of the
stream has been fetched: behind `c` symbols the buffer is `behindBatch`, the rest of the batch
that the last of them is in.
-/

variable {α β γ : Type}

/-- What one fetch brings; nothing would be the end of the stream. -/
abbrev Batch (α : Type) := { b : List α // b ≠ [] }

/-- The symbols that have been fetched and not handed out, and what the fetches to come bring. -/
structure Reader (α : Type) where
  buffer : List α
  pipe : List (Batch α)

namespace Reader

/-- The symbols still to come. -/
def stream (r : Reader α) : List α := r.buffer ++ r.pipe.flatMap Subtype.val

/-- A reader that has not read yet. -/
def ofBatches (ws : List (Batch α)) : Reader α := ⟨[], ws⟩

/-- A reader that has fetched everything. -/
def ofStream (xs : List α) : Reader α := ⟨xs, []⟩

@[simp] theorem stream_ofStream (xs : List α) : (ofStream xs).stream = xs := by
  simp [ofStream, stream]

@[simp] theorem stream_ofBatches (ws : List (Batch α)) :
    (ofBatches ws).stream = ws.flatMap Subtype.val := rfl

/-- Hand out one symbol, fetching a batch if the buffer is empty. -/
def take : Reader α → Option α × Reader α
  | ⟨x :: xs, ws⟩ => (some x, ⟨xs, ws⟩)
  | ⟨[], ⟨x :: xs, _⟩ :: ws⟩ => (some x, ⟨xs, ws⟩)
  | ⟨[], ⟨[], h⟩ :: _⟩ => absurd rfl h
  | ⟨[], []⟩ => (none, ⟨[], []⟩)

/-- Hand out `n` symbols. -/
def advance : Nat → Reader α → Reader α
  | 0, r => r
  | n + 1, r => advance n r.take.2

theorem take_stream (r : Reader α) :
    r.take.1 = r.stream.head? ∧ r.take.2.stream = r.stream.tail := by
  obtain ⟨buffer, pipe⟩ := r
  match buffer, pipe with
  | x :: xs, ws => exact ⟨rfl, rfl⟩
  | [], ⟨x :: xs, _⟩ :: ws => exact ⟨rfl, rfl⟩
  | [], ⟨[], h⟩ :: _ => exact absurd rfl h
  | [], [] => exact ⟨rfl, rfl⟩

@[simp] theorem stream_advance (n : Nat) (r : Reader α) :
    (r.advance n).stream = r.stream.drop n := by
  induction n generalizing r with
  | zero => rfl
  | succ n ih => rw [advance, ih, r.take_stream.2, List.drop_tail]

theorem advance_add (m n : Nat) (r : Reader α) :
    r.advance (m + n) = (r.advance m).advance n := by
  induction m generalizing r with
  | zero => rw [Nat.zero_add]; rfl
  | succ m ih => rw [Nat.add_right_comm, advance, ih, advance]

theorem advance_ofStream (n : Nat) (xs : List α) :
    (ofStream xs).advance n = ofStream (xs.drop n) := by
  induction n generalizing xs with
  | zero => rfl
  | succ n ih =>
    cases xs with
    | nil =>
      have hnil := ih []
      rwa [List.drop_nil] at hnil ⊢
    | cons x xs => exact ih xs

/-- At the end of the stream nothing is left anywhere. -/
theorem eq_of_stream_nil {r r' : Reader α} (h : r.stream = []) (h' : r'.stream = []) : r = r' := by
  have hempty (r : Reader α) (h : r.stream = []) : r = ⟨[], []⟩ := by
    obtain ⟨buffer, pipe⟩ := r
    obtain ⟨hbuffer, hpipe⟩ := List.append_eq_nil_iff.mp h
    cases pipe with
    | nil => exact congrArg (Reader.mk · []) hbuffer
    | cons w ws => exact absurd (List.append_eq_nil_iff.mp hpipe).1 w.2
  rw [hempty r h, hempty r' h']

/-- The symbols handed out are those that are no longer to come. -/
theorem advance_eq (n : Nat) (r : Reader α) :
    r.advance n = r.advance (r.stream.length - (r.advance n).stream.length) := by
  rw [stream_advance, List.length_drop]
  by_cases hn : n ≤ r.stream.length
  · congr 1
    omega
  · apply eq_of_stream_nil <;> rw [stream_advance] <;> exact List.drop_eq_nil_of_le (by omega)

/-! ### What has been fetched -/

/-- The rest, behind `c` symbols, of the batch that the last of them is in. -/
def behindBatch : List (Batch α) → Nat → List α
  | [], _ => []
  | w :: ws, c =>
    if c = 0 then []
    else if c ≤ w.1.length then w.1.drop c
    else behindBatch ws (c - w.1.length)

theorem advance_buffer {n : Nat} {xs : List α} (h : n ≤ xs.length) (ws : List (Batch α)) :
    advance n ⟨xs, ws⟩ = ⟨xs.drop n, ws⟩ := by
  induction n generalizing xs with
  | zero => rfl
  | succ n ih =>
    cases xs with
    | nil => exact absurd h (by simp)
    | cons x xs => exact ih (Nat.le_of_succ_le_succ h)

/-- **The buffer** behind `c` symbols is the rest of a batch. -/
theorem buffer_advance (ws : List (Batch α)) (c : Nat) :
    ((ofBatches ws).advance c).buffer = behindBatch ws c := by
  have hfirst (w : Batch α) (ws : List (Batch α)) {c : Nat} (hc : c ≠ 0) :
      (ofBatches (w :: ws)).advance c = advance c ⟨w.1, ws⟩ := by
    obtain ⟨c, rfl⟩ := Nat.exists_eq_succ_of_ne_zero hc
    obtain ⟨_ | ⟨x, xs⟩, hw⟩ := w
    · exact absurd rfl hw
    · rfl
  induction ws generalizing c with
  | nil =>
    have hend : (ofBatches ([] : List (Batch α))).advance c = ⟨[], []⟩ := by
      apply eq_of_stream_nil
      · rw [stream_advance]
        exact List.drop_nil
      · rfl
    rw [hend]
    rfl
  | cons w ws ih =>
    rw [behindBatch]
    split_ifs with hzero hle
    · rw [hzero]
      rfl
    · rw [hfirst w ws hzero, advance_buffer hle]
    · -- the first batch is used up, and the rest is counted from behind it
      have hsplit : c = w.1.length + (c - w.1.length) := by omega
      rw [hfirst w ws hzero]
      conv_lhs => rw [hsplit]
      rw [advance_add, advance_buffer (Nat.le_refl _), List.drop_length]
      exact ih _

/-- Behind all symbols nothing is left. -/
theorem behindBatch_length (ws : List (Batch α)) :
    behindBatch ws (ws.flatMap Subtype.val).length = [] := by
  have hend : ((ofBatches ws).advance (ws.flatMap Subtype.val).length).stream = [] := by
    rw [stream_advance, stream_ofBatches, List.drop_length]
  rw [← buffer_advance]
  exact (List.append_eq_nil_iff.mp hend).1

/-! ### Steady computations -/

/-- `getchar`: one symbol, or the end of the stream. -/
def next : StateM (Reader α) (Option α) := fun r => r.take

/-- What is still to come, to bound a loop by; nothing is handed out. -/
def ahead : StateM (Reader α) (List α) := fun r => (r.stream, r)

/-- What is computed, and how many symbols it takes, depends on the stream alone. -/
def Steady (m : StateM (Reader α) β) : Prop :=
  ∃ g : List α → β × Nat, ∀ r, m.run r = ((g r.stream).1, r.advance (g r.stream).2)

namespace Steady

theorem pure (b : β) : Steady (Pure.pure b : StateM (Reader α) β) := ⟨fun _ => (b, 0), fun _ => rfl⟩

theorem next : Steady (next : StateM (Reader α) (Option α)) :=
  ⟨fun xs => (xs.head?, 1), fun r => Prod.ext r.take_stream.1 rfl⟩

theorem ahead : Steady (ahead : StateM (Reader α) (List α)) :=
  ⟨fun xs => (xs, 0), fun _ => rfl⟩

/-- One computation and then another that may depend on its result. -/
theorem bind {m : StateM (Reader α) β} {k : β → StateM (Reader α) γ} (hm : Steady m)
    (hk : ∀ b, Steady (k b)) : Steady (m >>= k) := by
  obtain ⟨g, hg⟩ := hm
  choose gk hgk using hk
  refine ⟨fun xs => ((gk (g xs).1 (xs.drop (g xs).2)).1,
    (g xs).2 + (gk (g xs).1 (xs.drop (g xs).2)).2), fun r => ?_⟩
  show (k (m.run r).1).run (m.run r).2 = _
  rw [hg r, hgk, stream_advance, advance_add]

variable {m : StateM (Reader α) β}

/-- It only advances. -/
theorem advances (hm : Steady m) (r : Reader α) : ∃ n, (m.run r).2 = r.advance n := by
  obtain ⟨g, hg⟩ := hm
  exact ⟨(g r.stream).2, by rw [hg r]⟩

/-- **Batches do not matter**: on a stream that has been fetched as a whole it computes the same
    and gets as far. -/
theorem run_ofStream (hm : Steady m) (r : Reader α) :
    m.run (ofStream r.stream) = ((m.run r).1, ofStream (m.run r).2.stream) := by
  obtain ⟨g, hg⟩ := hm
  rw [hg r, hg (ofStream r.stream), stream_ofStream, advance_ofStream, stream_advance]

end Steady

end Reader
