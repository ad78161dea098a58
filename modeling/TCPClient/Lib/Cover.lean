import Mathlib.Algebra.BigOperators.Group.Finset.Basic
import Mathlib.Algebra.GroupWithZero.Nat
import Mathlib.Algebra.Order.BigOperators.Group.Finset
import Mathlib.Algebra.BigOperators.Group.Finset.Piecewise
import Mathlib.Order.Interval.Finset.Nat
import Mathlib.Data.List.Pairwise

/-!
# Positioned writes into a file

A file being filled by writes at arbitrary offsets.  `writeAt` is one such write (a gap
between the old end and the offset reads as zeros), `writeAll` a sequence of them starting
from an empty file.

Two questions about a sequence of writes are answered here.

* *coverage* — `covers_exactly_once`: writes that stay inside `[0, size)`, never overlap and
  have lengths adding up to `size` cover every position of `[0, size)` exactly once.  This is
  what lets a receiver that only counts bytes conclude that its file has no hole;
* *content* — `writeAll_eq`: if moreover every write carries the bytes a source has at its
  offset, then the file is the source, in whatever order the writes were made.

`pieces` cuts a source on a grid; for writes that are pieces of one source both questions come
down to whether a piece is missing (`sum_length_eq_iff_pieces`, `writeAll_of_pieces`).
-/

namespace Cover

/-- A write: an offset and the bytes put there. -/
abbrev Write := Nat × List UInt8

/-- Position `p` lies in the range a write touches. -/
def covers (p : Nat) (w : Write) : Bool := decide (w.1 ≤ p ∧ p < w.1 + w.2.length)

/-- Put `data` at offset `off`; a gap before it reads as zeros. -/
def writeAt (content : List UInt8) (off : Nat) (data : List UInt8) : List UInt8 :=
  if data = [] then content
  else
    let padded := content ++ List.replicate (off - content.length) 0
    padded.take off ++ data ++ padded.drop (off + data.length)

/-- The file left by a sequence of writes into an empty file. -/
def writeAll (ws : List Write) : List UInt8 := ws.foldl (fun c w => writeAt c w.1 w.2) []

@[simp] theorem writeAll_nil : writeAll [] = [] := rfl

theorem writeAll_concat (ws : List Write) (w : Write) :
    writeAll (ws ++ [w]) = writeAt (writeAll ws) w.1 w.2 := by
  simp [writeAll]

/-! ### One write -/

theorem length_writeAt (c : List UInt8) (off : Nat) {data : List UInt8} (h : data ≠ []) :
    (writeAt c off data).length = max c.length (off + data.length) := by
  have hd : 0 < data.length := List.length_pos_iff.mpr h
  simp only [writeAt, if_neg h, List.length_append, List.length_take, List.length_drop,
    List.length_replicate]
  omega

/-- Inside its range a write leaves its own bytes. -/
theorem getElem?_writeAt_of_covers (c : List UInt8) {off i : Nat} {data : List UInt8}
    (h : covers i (off, data)) : (writeAt c off data)[i]? = data[i - off]? := by
  simp only [covers, decide_eq_true_eq] at h
  have hne : data ≠ [] := by rintro rfl; simp at h; omega
  simp only [writeAt, if_neg hne]
  have htake : ((c ++ List.replicate (off - c.length) 0).take off).length = off := by
    simp only [List.length_take, List.length_append, List.length_replicate]; omega
  rw [List.append_assoc, List.getElem?_append_right (by omega), htake,
    List.getElem?_append_left (by omega)]

/-- Outside its range a write changes no byte that was there. -/
theorem getElem?_writeAt_of_not_covers {bs : List UInt8} {off i : Nat} {data : List UInt8}
    (h : covers i (off, data) = false) (hi : i < bs.length) :
    (writeAt bs off data)[i]? = bs[i]? := by
  simp only [covers, decide_eq_false_iff_not, not_and, not_lt] at h
  by_cases hne : data = []
  · simp [writeAt, hne]
  simp only [writeAt, if_neg hne]
  set padded := bs ++ List.replicate (off - bs.length) 0 with hp
  have hpl : off ≤ padded.length ∧ bs.length ≤ padded.length := by
    simp only [hp, List.length_append, List.length_replicate]; omega
  have hpi : padded[i]? = bs[i]? := by rw [hp, List.getElem?_append_left hi]
  have htake : (padded.take off).length = off := by rw [List.length_take]; omega
  by_cases hlt : i < off
  · rw [List.append_assoc, List.getElem?_append_left (by omega), List.getElem?_take_of_lt hlt, hpi]
  · have hge := h (by omega)
    have hlen : (padded.take off ++ data).length = off + data.length := by
      rw [List.length_append, htake]
    rw [List.getElem?_append_right (by omega), hlen, List.getElem?_drop,
      show off + data.length + (i - (off + data.length)) = i by omega, hpi]

/-! ### Coverage by counting -/

/-- How often position `p` was written. -/
def timesWritten (ws : List Write) (p : Nat) : Nat := ws.countP (covers p)

/-- Two writes that touch no common position. -/
def Disjoint (v w : Write) : Prop := ∀ p, ¬ (covers p v = true ∧ covers p w = true)

/-- Pairwise disjoint writes write no position twice. -/
theorem timesWritten_le_one {ws : List Write} (h : ws.Pairwise Disjoint) (p : Nat) :
    timesWritten ws p ≤ 1 := by
  induction ws with
  | nil => simp [timesWritten]
  | cons w ws ih =>
    obtain ⟨hw, hws⟩ := List.pairwise_cons.mp h
    have ih := ih hws
    simp only [timesWritten, List.countP_cons] at ih ⊢
    by_cases hp : covers p w = true
    · have h0 : ws.countP (covers p) = 0 := by
        rw [List.countP_eq_zero]
        intro v hv hpv
        exact hw v hv p ⟨hp, hpv⟩
      simp [h0, hp]
    · simpa [hp] using ih

/-- Counting over positions instead of writes: together the writes have written as many
    positions as their lengths add up to. -/
theorem sum_timesWritten (size : Nat) (ws : List Write)
    (h : ∀ w ∈ ws, w.1 + w.2.length ≤ size) :
    ∑ p ∈ Finset.range size, timesWritten ws p = (ws.map fun w => w.2.length).sum := by
  induction ws with
  | nil => simp [timesWritten]
  | cons w ws ih =>
    have hw := h w (by simp)
    have hone : ∑ p ∈ Finset.range size, (if covers p w = true then 1 else 0) = w.2.length := by
      rw [← Finset.card_filter]
      have hset : (Finset.range size).filter (fun p => covers p w = true)
          = Finset.Ico w.1 (w.1 + w.2.length) := by
        ext p
        simp only [Finset.mem_filter, Finset.mem_range, Finset.mem_Ico, covers, decide_eq_true_eq]
        omega
      rw [hset, Nat.card_Ico]; omega
    have hstep : ∀ p, timesWritten (w :: ws) p
        = timesWritten ws p + (if covers p w = true then 1 else 0) := by
      intro p; simp only [timesWritten, List.countP_cons]
    simp only [hstep, Finset.sum_add_distrib, List.map_cons, List.sum_cons, hone]
    -- the new write adds its length, position by position
    rw [ih (fun v hv => h v (by simp [hv]))]
    omega

/-- Disjoint writes inside `[0, size)` are together no longer than `size`. -/
theorem sum_length_le {size : Nat} {ws : List Write}
    (hin : ∀ w ∈ ws, w.1 + w.2.length ≤ size) (hdis : ws.Pairwise Disjoint) :
    (ws.map fun w => w.2.length).sum ≤ size := by
  rw [← sum_timesWritten size ws hin]
  calc ∑ p ∈ Finset.range size, timesWritten ws p
      ≤ ∑ _p ∈ Finset.range size, 1 := Finset.sum_le_sum fun p _ => timesWritten_le_one hdis p
    _ = size := by simp

/-- **No hole, no overlap.** Writes inside `[0, size)` that are pairwise disjoint and whose
    lengths add up to `size` write every position below `size` exactly once and none from
    `size` on. -/
theorem covers_exactly_once {size : Nat} {ws : List Write}
    (hin : ∀ w ∈ ws, w.1 + w.2.length ≤ size) (hdis : ws.Pairwise Disjoint)
    (hsum : (ws.map fun w => w.2.length).sum = size) (p : Nat) :
    timesWritten ws p = if p < size then 1 else 0 := by
  by_cases hp : p < size
  · have hle : ∀ q ∈ Finset.range size, timesWritten ws q ≤ 1 :=
      fun q _ => timesWritten_le_one hdis q
    have htot : ∑ q ∈ Finset.range size, timesWritten ws q = ∑ _q ∈ Finset.range size, 1 := by
      rw [sum_timesWritten size ws hin, hsum]; simp
    -- terms of at most 1 that add up to as many as there are of them are all 1
    rw [if_pos hp]
    exact (Finset.sum_eq_sum_iff_of_le hle).mp htot p (Finset.mem_range.mpr hp)
  · rw [if_neg hp, timesWritten, List.countP_eq_zero]
    intro w hw hc
    have := hin w hw
    simp only [covers, decide_eq_true_eq] at hc
    omega

/-- A position that was written was written by one of the writes. -/
theorem exists_covers_of_timesWritten {ws : List Write} {p : Nat} (h : 0 < timesWritten ws p) :
    ∃ w ∈ ws, covers p w = true := List.countP_pos_iff.mp h

/-! ### Length and content of the file -/

/-- The file never grows past the range the writes stay in. -/
theorem length_writeAll_le {size : Nat} {ws : List Write}
    (h : ∀ w ∈ ws, w.1 + w.2.length ≤ size) : (writeAll ws).length ≤ size := by
  induction ws using List.reverseRecOn with
  | nil => simp
  | append_singleton ws w ih =>
    have ih := ih (fun v hv => h v (by simp [hv]))
    have hw := h w (by simp)
    rw [writeAll_concat]
    by_cases hne : w.2 = []
    · simpa [writeAt, hne] using ih
    · rw [length_writeAt _ _ hne]; omega

/-- A position that was written lies inside the file. -/
theorem lt_length_writeAll {ws : List Write} {w : Write} (hw : w ∈ ws) {p : Nat}
    (hp : covers p w = true) : p < (writeAll ws).length := by
  induction ws using List.reverseRecOn with
  | nil => simp at hw
  | append_singleton ws v ih =>
    rw [writeAll_concat]
    rcases List.mem_append.mp hw with hws | hv
    · have ih := ih hws
      by_cases hne : v.2 = []
      · simpa [writeAt, hne] using ih
      · rw [length_writeAt _ _ hne]; omega
    · obtain rfl : w = v := by simpa using hv
      simp only [covers, decide_eq_true_eq] at hp
      have hne : w.2 ≠ [] := by intro h; simp [h] at hp; omega
      rw [length_writeAt _ _ hne]; omega

/-- Writes that cover `[0, size)` exactly once leave a file of exactly that length. -/
theorem length_writeAll_of_covers {size : Nat} {ws : List Write}
    (hin : ∀ w ∈ ws, w.1 + w.2.length ≤ size)
    (hcov : ∀ p < size, ∃ w ∈ ws, covers p w = true) : (writeAll ws).length = size := by
  apply le_antisymm (length_writeAll_le hin)
  by_contra hlt
  obtain ⟨w, hw, hp⟩ := hcov (writeAll ws).length (by omega)
  exact absurd (lt_length_writeAll hw hp) (lt_irrefl _)

/-- A write carries the bytes `src` has in its range. -/
def Carries (src : List UInt8) (w : Write) : Prop := w.2 = (src.drop w.1).take w.2.length

/-- Wherever something was written, the file agrees with the source of the writes. -/
theorem getElem?_writeAll {src : List UInt8} {ws : List Write}
    (hsrc : ∀ w ∈ ws, Carries src w) {p : Nat} (hp : ∃ w ∈ ws, covers p w = true) :
    (writeAll ws)[p]? = src[p]? := by
  induction ws using List.reverseRecOn with
  | nil => simp at hp
  | append_singleton ws v ih =>
    rw [writeAll_concat]
    -- the last write decides, if it reaches the position
    cases hv : covers p v with
    | true =>
      have hr : v.1 ≤ p ∧ p < v.1 + v.2.length := by simpa [covers] using hv
      rw [getElem?_writeAt_of_covers _ hv]
      calc v.2[p - v.1]?
          = ((src.drop v.1).take v.2.length)[p - v.1]? := by rw [← hsrc v (by simp)]
        _ = (src.drop v.1)[p - v.1]? := List.getElem?_take_of_lt (by omega)
        _ = src[p]? := by rw [List.getElem?_drop, show v.1 + (p - v.1) = p by omega]
    | false =>
      obtain ⟨w, hw, hwp⟩ := hp
      have hws : w ∈ ws := by
        rcases List.mem_append.mp hw with h | h
        · exact h
        · obtain rfl : w = v := by simpa using h
          rw [hv] at hwp; exact absurd hwp (by simp)
      rw [getElem?_writeAt_of_not_covers hv (lt_length_writeAll hws hwp)]
      exact ih (fun u hu => hsrc u (by simp [hu])) ⟨w, hws, hwp⟩

/-- **The file is the source** when the writes carry the source's bytes, stay inside it and
    leave no position out, in whatever order they were made. -/
theorem writeAll_eq {src : List UInt8} {ws : List Write}
    (hsrc : ∀ w ∈ ws, Carries src w) (hin : ∀ w ∈ ws, w.1 + w.2.length ≤ src.length)
    (hcov : ∀ p < src.length, ∃ w ∈ ws, covers p w = true) : writeAll ws = src := by
  have hlen := length_writeAll_of_covers hin hcov
  apply List.ext_getElem?
  intro p
  -- behind the end of the source both are empty
  by_cases hp : p < src.length
  · exact getElem?_writeAll hsrc (hcov p hp)
  · rw [List.getElem?_eq_none (by omega), List.getElem?_eq_none (by omega)]

/-! ### Writes aligned to a grid -/

/-- Writes at different multiples of `k`, none longer than `k`, are disjoint. -/
theorem disjoint_of_aligned {k : Nat} {v w : Write} (hv : k ∣ v.1) (hw : k ∣ w.1)
    (hvl : v.2.length ≤ k) (hwl : w.2.length ≤ k) (hne : v.1 ≠ w.1) : Disjoint v w := by
  rintro p ⟨hpv, hpw⟩
  simp only [covers, decide_eq_true_eq] at hpv hpw
  obtain ⟨a, ha⟩ := hv
  obtain ⟨b, hb⟩ := hw
  -- one of the two ends before the other starts
  rcases Nat.lt_trichotomy a b with hab | hab | hab
  · have : k * (a + 1) ≤ k * b := Nat.mul_le_mul_left k hab
    rw [Nat.mul_succ] at this; omega
  · exact hne (by rw [ha, hb, hab])
  · have : k * (b + 1) ≤ k * a := Nat.mul_le_mul_left k hab
    rw [Nat.mul_succ] at this; omega

/-- Aligned writes at pairwise different offsets are pairwise disjoint. -/
theorem pairwise_disjoint_of_aligned {k : Nat} {ws : List Write}
    (hal : ∀ w ∈ ws, k ∣ w.1) (hlen : ∀ w ∈ ws, w.2.length ≤ k)
    (hnd : (ws.map Prod.fst).Nodup) : ws.Pairwise Disjoint := by
  have hpw : ws.Pairwise fun v w => v.1 ≠ w.1 := List.pairwise_map.mp hnd
  refine List.Pairwise.imp_of_mem ?_ hpw
  intro v w hv hw hne
  exact disjoint_of_aligned (hal v hv) (hal w hw) (hlen v hv) (hlen w hw) hne

/-! ### The pieces of a source -/

/-- The piece of `src` at position `i` of the grid of width `k`. -/
def piece (k : Nat) (src : List UInt8) (i : Nat) : Write := (k * i, (src.drop (k * i)).take k)

/-- `src` cut into pieces of length `k` and a last one that may be shorter. -/
def pieces (k : Nat) (src : List UInt8) : List Write :=
  (List.range ((src.length + (k - 1)) / k)).map (piece k src)

section Pieces

variable {k : Nat} {src : List UInt8}

theorem mem_pieces (hk : 0 < k) {w : Write} :
    w ∈ pieces k src ↔ ∃ i, k * i < src.length ∧ piece k src i = w := by
  have hindex : ∀ i, i < (src.length + (k - 1)) / k ↔ k * i < src.length := by
    intro i
    rw [← Nat.succ_le_iff, Nat.le_div_iff_mul_le hk, Nat.succ_mul, Nat.mul_comm]
    omega
  simp only [pieces, List.mem_map, List.mem_range, hindex]

/-- A piece is a write on the grid, not empty, not longer than the grid is wide, inside the
    source, and with the source's bytes. -/
theorem piece_spec (hk : 0 < k) {w : Write} (hw : w ∈ pieces k src) :
    k ∣ w.1 ∧ 0 < w.2.length ∧ w.2.length ≤ k ∧ w.1 + w.2.length ≤ src.length ∧
      Carries src w := by
  obtain ⟨i, hi, rfl⟩ := (mem_pieces hk).mp hw
  have hlen : (piece k src i).2.length = min k (src.length - k * i) := by
    simp [piece, List.length_take, List.length_drop]
  have hoff : (piece k src i).1 = k * i := rfl
  refine ⟨Dvd.intro i rfl, by omega, by omega, by omega, ?_⟩
  rw [Carries, hlen]
  simp [piece, List.take_eq_take_iff]

/-- Pieces at one offset are one piece. -/
theorem eq_of_offset (hk : 0 < k) {v w : Write} (hv : v ∈ pieces k src) (hw : w ∈ pieces k src)
    (h : v.1 = w.1) : v = w := by
  obtain ⟨i, -, rfl⟩ := (mem_pieces hk).mp hv
  obtain ⟨j, -, rfl⟩ := (mem_pieces hk).mp hw
  have hij : i = j := Nat.eq_of_mul_eq_mul_left hk h
  rw [hij]

/-- No two pieces have one offset. -/
theorem nodup_pieces (hk : 0 < k) (src : List UInt8) : ((pieces k src).map Prod.fst).Nodup := by
  rw [pieces, List.map_map]
  exact List.nodup_range.map fun _ _ h => Nat.eq_of_mul_eq_mul_left hk h

variable {ws : List Write} (hk : 0 < k) (hmem : ∀ w ∈ ws, w ∈ pieces k src)
include hk hmem

/-- Pieces cover the source exactly when none is missing. -/
theorem covered_iff_pieces :
    (∀ p < src.length, ∃ w ∈ ws, covers p w = true) ↔ ∀ w ∈ pieces k src, w ∈ ws := by
  constructor
  · intro hcov w hw
    obtain ⟨-, hpos, hshort, hin, -⟩ := piece_spec hk hw
    obtain ⟨v, hv, hvp⟩ := hcov w.1 (by omega)
    have hvmem := hmem v hv
    have hvspec := piece_spec hk hvmem
    -- the piece that covers the first position of `w` starts at the same grid position
    obtain ⟨a, ha⟩ := hvspec.1
    obtain ⟨b, hb⟩ := (piece_spec hk hw).1
    simp only [covers, decide_eq_true_eq] at hvp
    have hab : a = b := by
      have h1 : k * a ≤ k * b := by omega
      have h2 : k * b < k * (a + 1) := by rw [Nat.mul_succ]; omega
      have h3 := Nat.le_of_mul_le_mul_left h1 hk
      have h4 := Nat.lt_of_mul_lt_mul_left h2
      omega
    rw [← eq_of_offset hk hvmem hw (by rw [ha, hb, hab])]
    exact hv
  · intro hall p hp
    -- position `p` lies in the piece of number `p / k`
    have hi : k * (p / k) ≤ p := Nat.mul_div_le p k
    have hr : p < k * (p / k) + k := by
      rw [← Nat.mul_succ]
      exact Nat.lt_mul_div_succ p hk
    refine ⟨piece k src (p / k), hall _ ((mem_pieces hk).mpr ⟨_, by omega, rfl⟩), ?_⟩
    simp only [covers, decide_eq_true_eq, piece, List.length_take, List.length_drop]
    omega

/-- Different pieces of the source have as many bytes as it has exactly when none is missing. -/
theorem sum_length_eq_iff_pieces (hnd : (ws.map Prod.fst).Nodup) :
    (ws.map fun w => w.2.length).sum = src.length ↔ ∀ w ∈ pieces k src, w ∈ ws := by
  have hin : ∀ w ∈ ws, w.1 + w.2.length ≤ src.length :=
    fun w hw => (piece_spec hk (hmem w hw)).2.2.2.1
  have hdis : ws.Pairwise Disjoint := pairwise_disjoint_of_aligned
    (fun w hw => (piece_spec hk (hmem w hw)).1)
    (fun w hw => (piece_spec hk (hmem w hw)).2.2.1) hnd
  rw [← covered_iff_pieces hk hmem]
  constructor
  · intro hsum p hp
    apply exists_covers_of_timesWritten
    rw [covers_exactly_once hin hdis hsum p, if_pos hp]
    exact Nat.one_pos
  · intro hcov
    rw [← sum_timesWritten src.length ws hin]
    have hone : ∀ p ∈ Finset.range src.length, timesWritten ws p = 1 := by
      intro p hp
      apply le_antisymm (timesWritten_le_one hdis p)
      exact List.countP_pos_iff.mpr (hcov p (Finset.mem_range.mp hp))
    rw [Finset.sum_congr rfl hone]
    simp

/-- All pieces, in any order, make the source. -/
theorem writeAll_of_pieces (hall : ∀ w ∈ pieces k src, w ∈ ws) : writeAll ws = src :=
  writeAll_eq (fun w hw => (piece_spec hk (hmem w hw)).2.2.2.2)
    (fun w hw => (piece_spec hk (hmem w hw)).2.2.2.1) ((covered_iff_pieces hk hmem).mpr hall)

end Pieces

end Cover
