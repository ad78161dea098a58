import TCPClient.Utils
import TCPClient.Lib.Tiling
import Mathlib.Data.Nat.Bitwise

namespace TCPClient

open Tiling

/-!
# `file.c` — the chunk plan and the bitmap of received chunks

A file is cut into chunks of `FILE_CHUNK_DATA_MAX` bytes, numbered from 0; `fileChunkPlan_eq`
is the plan in exact arithmetic, and `fileChunkPlan_tiles` says that its chunks tile the file.
The receiver keeps one bit for each chunk number; `Marked` reads the bit, and the two
specification lemmas `fileRecvSpanCheck_iff` and `marked_fileRecvSpanMark` let the bitmap be
forgotten in favour of the set of marked numbers.
-/

def fileChunkDataMax : Nat := 65500

/-! ### The plan -/

/-- `file_chunk_count`. -/
def fileChunkCount (size chunkSize : Nat) : Nat :=
  if size = 0 then 0 else size / chunkSize + if size % chunkSize ≠ 0 then 1 else 0

/-- `file_chunk_plan`: offset and length of a chunk, in 64-bit and 32-bit arithmetic. -/
def fileChunkPlan (size chunkSize index : Nat) : Option (Nat × Nat) :=
  let count := fileChunkCount size chunkSize
  if index ≥ count then none
  else
    let offset := index * chunkSize % 2 ^ 64
    let remain := (size + 2 ^ 64 - offset) % 2 ^ 64
    some (offset, if remain ≥ chunkSize then chunkSize else remain % 2 ^ 32)

/-- A number counts a chunk exactly when the chunk starts inside the file. -/
theorem lt_fileChunkCount_iff {size chunkSize : Nat} (hpos : 0 < chunkSize) (index : Nat) :
    index < fileChunkCount size chunkSize ↔ index * chunkSize < size := by
  have hdiv := Nat.div_add_mod size chunkSize
  have hmod := Nat.mod_lt size hpos
  have hmul : ∀ k, index * chunkSize < k * chunkSize ↔ index < k :=
    fun k => Nat.mul_lt_mul_right hpos
  rw [Nat.mul_comm] at hdiv
  unfold fileChunkCount
  split_ifs with hzero hrest
  · omega
  · -- the quotient chunks and a shorter one
    rw [← hmul, Nat.succ_mul]
    constructor
    · intro h
      by_contra hge
      have hq := (hmul (size / chunkSize + 1)).mp (by rw [Nat.succ_mul]; omega)
      have hle := Nat.mul_le_mul_right chunkSize (Nat.le_of_lt_succ hq)
      omega
    · omega
  · have hexact : size / chunkSize * chunkSize = size := by omega
    rw [Nat.add_zero, ← hmul, hexact]

/-- The plan in exact arithmetic. -/
theorem fileChunkPlan_eq {size chunkSize : Nat} (hsize : size < 2 ^ 64) (hpos : 0 < chunkSize)
    (hchunk : chunkSize < 2 ^ 32) (index : Nat) :
    fileChunkPlan size chunkSize index =
      if index < fileChunkCount size chunkSize then
        some (index * chunkSize, min chunkSize (size - index * chunkSize))
      else none := by
  unfold fileChunkPlan
  dsimp only
  by_cases hin : index < fileChunkCount size chunkSize
  · rw [if_neg (by omega), if_pos hin]
    have hlt := (lt_fileChunkCount_iff hpos index).mp hin
    rw [Nat.mod_eq_of_lt (by omega : index * chunkSize < 2 ^ 64)]
    generalize index * chunkSize = offset at hlt ⊢
    have hremain : (size + 2 ^ 64 - offset) % 2 ^ 64 = size - offset := by omega
    rw [hremain]
    split_ifs with hfull
    · rw [Nat.min_eq_left hfull]
    · rw [Nat.min_eq_right (by omega), Nat.mod_eq_of_lt (by omega)]
  · rw [if_pos (by omega), if_neg hin]

/-- No operation of `file_chunk_count` and `file_chunk_plan` leaves its type: the rounded-up
    quotient, the product, the difference, and the last length as a `uint32_t`. -/
structure PlanExact (size chunkSize : Nat) : Prop where
  count : fileChunkCount size chunkSize < 2 ^ 64
  product : ∀ index < fileChunkCount size chunkSize, index * chunkSize < 2 ^ 64
  difference : ∀ index < fileChunkCount size chunkSize, index * chunkSize ≤ size
  narrowing : ∀ index < fileChunkCount size chunkSize,
    ¬ size - index * chunkSize ≥ chunkSize → size - index * chunkSize < 2 ^ 32

theorem planExact {size chunkSize : Nat} (hsize : size < 2 ^ 64) (hpos : 0 < chunkSize)
    (hchunk : chunkSize < 2 ^ 32) : PlanExact size chunkSize := by
  have hstart : ∀ index < fileChunkCount size chunkSize, index * chunkSize < size :=
    fun index => (lt_fileChunkCount_iff hpos index).mp
  refine ⟨?_, ?_, fun index hin => (hstart index hin).le, ?_⟩
  · -- there are at most as many chunks as bytes
    by_contra hge
    have hlt := hstart size (by omega)
    have hle := Nat.le_mul_of_pos_right size hpos
    omega
  · exact fun index hin => lt_trans (hstart index hin) hsize
  · intro index _ hlast
    omega

/-- **The chunks tile the file**: they follow on one another from 0 to `size`, all but the last
    have the full length, no other number is planned, and no word overflows on the way. -/
theorem fileChunkPlan_tiles {size chunkSize : Nat} (hsize : size < 2 ^ 64) (hpos : 0 < chunkSize)
    (hchunk : chunkSize < 2 ^ 32) :
    ∃ offset len : Nat → Nat,
      (∀ index, fileChunkPlan size chunkSize index =
        if index < fileChunkCount size chunkSize then some (offset index, len index)
        else none) ∧
      Tiles size (fileChunkCount size chunkSize) offset len ∧
      (∀ index < fileChunkCount size chunkSize, 1 ≤ len index ∧ len index ≤ chunkSize) ∧
      (∀ index, index + 1 < fileChunkCount size chunkSize → len index = chunkSize) ∧
      ∑ index ∈ Finset.range (fileChunkCount size chunkSize), len index = size ∧
      (∀ p < size, ∃! index, index < fileChunkCount size chunkSize ∧ offset index ≤ p ∧
        p < offset index + len index) ∧
      PlanExact size chunkSize := by
  have hcount : ∀ i, i < fileChunkCount size chunkSize ↔ i * chunkSize < size :=
    lt_fileChunkCount_iff hpos
  have htiles := tiles_of_step hpos hcount
  refine ⟨fun index => index * chunkSize, fun index => min chunkSize (size - index * chunkSize),
    fileChunkPlan_eq hsize hpos hchunk, htiles, ?_, fun index => len_of_next hcount,
    htiles.sum_len, fun p => htiles.existsUnique, planExact hsize hpos hchunk⟩
  exact fun index hin => ⟨htiles.pos index hin, Nat.min_le_left _ _⟩

/-- The largest file in the largest chunks: one chunk more than `2 ^ 32`, the last of them as
    long as the others. -/
theorem fileChunkPlan_tiles_largest :
    (∃ offset len : Nat → Nat,
        fileChunkPlan (2 ^ 64 - 1) (2 ^ 32 - 1) (2 ^ 32) = some (offset (2 ^ 32), len (2 ^ 32)) ∧
        Tiles (2 ^ 64 - 1) (2 ^ 32 + 1) offset len) ∧
      fileChunkPlan (2 ^ 64 - 1) (2 ^ 32 - 1) (2 ^ 32) =
        some (2 ^ 64 - 2 ^ 32, 2 ^ 32 - 1) := by
  have hsize : 2 ^ 64 - 1 < 2 ^ 64 := by decide
  have hchunk : 2 ^ 32 - 1 < 2 ^ 32 := by decide
  obtain ⟨offset, len, hplan, htiles, -⟩ := fileChunkPlan_tiles hsize (by decide) hchunk
  exact ⟨⟨offset, len, hplan (2 ^ 32), htiles⟩, by decide⟩

/-- The chunk that starts at `offset`, as long as there is something left to send. -/
theorem fileChunkPlan_of_dvd {size offset : Nat} (hsize : size < 2 ^ 64) (hlt : offset < size)
    (hdvd : fileChunkDataMax ∣ offset) :
    fileChunkPlan size fileChunkDataMax (offset / fileChunkDataMax) =
      some (offset, min fileChunkDataMax (size - offset)) := by
  have hpos : 0 < fileChunkDataMax := by decide
  have hoff : offset / fileChunkDataMax * fileChunkDataMax = offset := Nat.div_mul_cancel hdvd
  have hin := (lt_fileChunkCount_iff hpos (offset / fileChunkDataMax)).mpr (by rwa [hoff])
  rw [fileChunkPlan_eq hsize hpos (by decide), if_pos hin, hoff]

/-! ### The bitmap -/

/-- `recv_bitmap_index`: the byte that holds the bit of the chunk at `offset`. -/
def recvBitmapIndex (bitmapLen offset : Nat) : Option Nat :=
  if offset % fileChunkDataMax ≠ 0 then none
  else
    let chunk := offset / fileChunkDataMax
    if chunk / 8 ≥ bitmapLen then none else some (chunk / 8)

/-- `file_recv_span_check`: `true` for the answer 0. -/
def fileRecvSpanCheck (size : Nat) (bitmap : Bytes) (bitmapLen offset len : Nat) : Bool :=
  if size = 0 ∨ len = 0 ∨ offset ≥ size then false
  else if len > size - offset ∨ len > fileChunkDataMax then false
  else
    match recvBitmapIndex bitmapLen offset with
    | none => false
    | some idx =>
      let chunk := offset / fileChunkDataMax
      bitmap.getD idx 0 &&& UInt8.ofNat (1 <<< (chunk % 8)) = 0

/-- `file_recv_span_mark`: the bitmap with the bit set; an offset without a bit changes
    nothing. -/
def fileRecvSpanMark (bitmap : Bytes) (bitmapLen offset : Nat) : Bytes :=
  match recvBitmapIndex bitmapLen offset with
  | none => bitmap
  | some idx =>
    let chunk := offset / fileChunkDataMax
    bitmap.set idx (bitmap.getD idx 0 ||| UInt8.ofNat (1 <<< (chunk % 8)))

/-- The bit of chunk number `k` is set. -/
def Marked (bitmap : Bytes) (k : Nat) : Prop := (bitmap.getD (k / 8) 0).toNat.testBit (k % 8)

private theorem toNat_bit {k : Nat} (hk : k < 8) : (UInt8.ofNat (1 <<< k)).toNat = 2 ^ k := by
  rw [UInt8.toNat_ofNat', Nat.one_shiftLeft]
  exact Nat.mod_eq_of_lt (Nat.pow_lt_pow_right (by decide) hk)

/-- The masked byte is zero exactly when the bit is clear. -/
private theorem and_bit_eq_zero {b : UInt8} {k : Nat} (hk : k < 8) :
    b &&& UInt8.ofNat (1 <<< k) = 0 ↔ ¬ b.toNat.testBit k := by
  rw [← UInt8.toNat_inj, UInt8.toNat_and, toNat_bit hk, Nat.and_two_pow]
  cases b.toNat.testBit k <;> simp

private theorem testBit_or_bit {b : UInt8} {j k : Nat} (hk : k < 8) :
    (b ||| UInt8.ofNat (1 <<< k)).toNat.testBit j = (b.toNat.testBit j || decide (k = j)) := by
  rw [UInt8.toNat_or, toNat_bit hk, Nat.testBit_or, Nat.testBit_two_pow]

/-- Every offset inside the file has a bit in a bitmap of the size `/accept` allocates. -/
theorem chunk_div_eight_lt {size offset : Nat} (h : offset < size) :
    offset / fileChunkDataMax / 8 < fileChunkCount size fileChunkDataMax / 8 + 1 := by
  have hcount : offset / fileChunkDataMax ≤ fileChunkCount size fileChunkDataMax := by
    unfold fileChunkCount fileChunkDataMax
    split_ifs <;> omega
  omega

/-- **Span check.** With a bit for every chunk of the file, a span is accepted exactly when it
    is aligned, not empty, no longer than a chunk, inside the file, and not marked. -/
theorem fileRecvSpanCheck_iff {size : Nat} {bitmap : Bytes} {bitmapLen : Nat}
    (hlen : bitmapLen = fileChunkCount size fileChunkDataMax / 8 + 1) (offset len : Nat) :
    fileRecvSpanCheck size bitmap bitmapLen offset len = true ↔
      fileChunkDataMax ∣ offset ∧ 0 < len ∧ len ≤ fileChunkDataMax ∧ offset + len ≤ size ∧
        ¬ Marked bitmap (offset / fileChunkDataMax) := by
  have hmax : fileChunkDataMax = 65500 := rfl
  unfold fileRecvSpanCheck recvBitmapIndex Marked
  by_cases h1 : size = 0 ∨ len = 0 ∨ offset ≥ size
  · rw [if_pos h1]
    constructor
    · intro h; exact absurd h (by simp)
    · rintro ⟨-, hpos, -, hin, -⟩; omega
  rw [if_neg h1]
  by_cases h2 : len > size - offset ∨ len > fileChunkDataMax
  · rw [if_pos h2]
    constructor
    · intro h; exact absurd h (by simp)
    · rintro ⟨-, -, hmax, hin, -⟩; omega
  rw [if_neg h2]
  by_cases h3 : offset % fileChunkDataMax ≠ 0
  · rw [if_pos h3]
    constructor
    · intro h; exact absurd h (by simp)
    · rintro ⟨hdvd, -⟩; exact absurd (Nat.mod_eq_zero_of_dvd hdvd) h3
  -- `recv_bitmap_index` finds a byte for every chunk of the file
  have hbit : ¬ offset / fileChunkDataMax / 8 ≥ bitmapLen := by
    have hlt : offset < size := by omega
    rw [hlen]
    exact not_le_of_gt (chunk_div_eight_lt hlt)
  rw [if_neg h3, if_neg hbit]
  simp only [decide_eq_true_eq, and_bit_eq_zero (Nat.mod_lt _ (by decide : 0 < 8))]
  rw [not_not] at h3
  constructor
  · intro h
    exact ⟨Nat.dvd_of_mod_eq_zero h3, by omega, by omega, by omega, h⟩
  · rintro ⟨-, -, -, -, h⟩
    exact h

/-- **Span mark.** Marking an aligned offset of a bitmap that is long enough sets its own
    number and no other. -/
theorem marked_fileRecvSpanMark {bitmap : Bytes} {bitmapLen offset : Nat}
    (hlen : bitmap.length = bitmapLen) (hdvd : fileChunkDataMax ∣ offset)
    (hbit : offset / fileChunkDataMax / 8 < bitmapLen) (k : Nat) :
    Marked (fileRecvSpanMark bitmap bitmapLen offset) k ↔
      Marked bitmap k ∨ k = offset / fileChunkDataMax := by
  have hmod : offset % fileChunkDataMax = 0 := Nat.mod_eq_zero_of_dvd hdvd
  unfold fileRecvSpanMark recvBitmapIndex Marked
  rw [if_neg (not_not_intro hmod), if_neg (by omega)]
  generalize offset / fileChunkDataMax = chunk at hbit ⊢
  simp only [List.getD_eq_getElem?_getD, List.getElem?_set]
  -- another byte of the bitmap is not touched
  by_cases hbyte : chunk / 8 = k / 8
  · rw [if_pos hbyte, if_pos (by omega), Option.getD_some,
      testBit_or_bit (Nat.mod_lt _ (by decide)), Bool.or_eq_true, decide_eq_true_eq, hbyte]
    have heq : chunk % 8 = k % 8 ↔ k = chunk := by omega
    rw [heq]
  · rw [if_neg hbyte]
    constructor
    · exact Or.inl
    · rintro (h | rfl)
      · exact h
      · exact absurd rfl hbyte

@[simp] theorem length_fileRecvSpanMark (bitmap : Bytes) (bitmapLen offset : Nat) :
    (fileRecvSpanMark bitmap bitmapLen offset).length = bitmap.length := by
  unfold fileRecvSpanMark
  cases recvBitmapIndex bitmapLen offset <;> simp

/-- No number is marked in the bitmap `/accept` allocates. -/
theorem not_marked_zero (n k : Nat) : ¬ Marked (List.replicate n 0) k := by
  unfold Marked
  rw [List.getD_eq_getElem?_getD, List.getElem?_replicate]
  split_ifs <;> simp

/-! ### Any number of marks -/

/-- `file_recv_span_mark` on one offset after the other. -/
def markAll (bitmap : Bytes) (bitmapLen : Nat) (offsets : List Nat) : Bytes :=
  offsets.foldl (fun bitmap offset => fileRecvSpanMark bitmap bitmapLen offset) bitmap

theorem recvBitmapIndex_eq_some {bitmapLen offset idx : Nat} :
    recvBitmapIndex bitmapLen offset = some idx ↔
      fileChunkDataMax ∣ offset ∧ idx = offset / fileChunkDataMax / 8 ∧ idx < bitmapLen := by
  unfold recvBitmapIndex
  rw [Nat.dvd_iff_mod_eq_zero]
  dsimp only
  split_ifs with halign hshort
  · simp [halign]
  · simp only [false_iff]
    rintro ⟨-, rfl, hlt⟩
    omega
  · rw [not_not] at halign
    simp only [Option.some.injEq, halign, true_and]
    constructor
    · rintro rfl
      exact ⟨rfl, by omega⟩
    · rintro ⟨rfl, -⟩
      rfl

/-- A mark that is refused leaves the bitmap as it is. -/
theorem fileRecvSpanMark_of_none {bitmap : Bytes} {bitmapLen offset : Nat}
    (h : recvBitmapIndex bitmapLen offset = none) :
    fileRecvSpanMark bitmap bitmapLen offset = bitmap := by
  rw [fileRecvSpanMark, h]

/-- **The bitmap is a set**: after any marks it holds the numbers of the offsets whose mark
    succeeded, and those it held before. -/
theorem marked_markAll {bitmap : Bytes} {bitmapLen : Nat} (hlen : bitmap.length = bitmapLen)
    (offsets : List Nat) (k : Nat) :
    Marked (markAll bitmap bitmapLen offsets) k ↔
      Marked bitmap k ∨ ∃ offset ∈ offsets, (recvBitmapIndex bitmapLen offset).isSome = true ∧
        k = offset / fileChunkDataMax := by
  induction offsets generalizing bitmap with
  | nil => simp [markAll]
  | cons offset offsets ih =>
    show Marked (markAll (fileRecvSpanMark bitmap bitmapLen offset) bitmapLen offsets) k ↔ _
    rw [ih (by rw [length_fileRecvSpanMark, hlen])]
    cases hidx : recvBitmapIndex bitmapLen offset with
    | none =>
      rw [fileRecvSpanMark_of_none hidx]
      simp [hidx]
    | some idx =>
      obtain ⟨hdvd, rfl, hbit⟩ := recvBitmapIndex_eq_some.mp hidx
      rw [marked_fileRecvSpanMark hlen hdvd hbit]
      simp [hidx, or_assoc]

/-- Every aligned offset of the file has its bit, at an index a `long` holds. -/
theorem recvBitmapIndex_of_lt {size offset : Nat} (hdvd : fileChunkDataMax ∣ offset)
    (hlt : offset < size) :
    recvBitmapIndex (fileChunkCount size fileChunkDataMax / 8 + 1) offset =
      some (offset / fileChunkDataMax / 8) :=
  recvBitmapIndex_eq_some.mpr ⟨hdvd, rfl, chunk_div_eight_lt hlt⟩

/-- The bitmap of `/accept` after any calls of `file_recv_span_mark`. -/
def spanBitmap (size : Nat) (offsets : List Nat) : Bytes :=
  let bitmapLen := fileChunkCount size fileChunkDataMax / 8 + 1
  markAll (List.replicate bitmapLen 0) bitmapLen offsets

/-- A span is accepted exactly when it is a chunk of the file, or the front of one, that has not
    been marked. -/
theorem fileRecvSpanCheck_spanBitmap {size : Nat} (marks : List Nat) (offset len : Nat) :
    fileRecvSpanCheck size (spanBitmap size marks)
        (fileChunkCount size fileChunkDataMax / 8 + 1) offset len = true ↔
      fileChunkDataMax ∣ offset ∧ offset < size ∧ 1 ≤ len ∧
        len ≤ min fileChunkDataMax (size - offset) ∧ offset ∉ marks := by
  rw [fileRecvSpanCheck_iff rfl, spanBitmap, marked_markAll List.length_replicate]
  simp only [not_marked_zero, false_or]
  constructor
  · rintro ⟨hdvd, hpos, hmax, hin, hnew⟩
    refine ⟨hdvd, by omega, hpos, by omega, fun hmem => hnew ⟨offset, hmem, ?_, rfl⟩⟩
    rw [recvBitmapIndex_of_lt hdvd (by omega)]
    rfl
  · rintro ⟨hdvd, hlt, hpos, hmax, hnew⟩
    refine ⟨hdvd, hpos, by omega, by omega, ?_⟩
    -- chunk numbers of aligned offsets are the offsets
    rintro ⟨other, hmem, hsome, hnumber⟩
    obtain ⟨idx, hidx⟩ := Option.isSome_iff_exists.mp hsome
    have hother := (recvBitmapIndex_eq_some.mp hidx).1
    have heq : offset = other := by
      rw [← Nat.div_mul_cancel hdvd, ← Nat.div_mul_cancel hother, hnumber]
    exact hnew (heq ▸ hmem)

/-- **The bitmap of `/accept` is a set of chunk numbers.** After any calls of
    `file_recv_span_mark`, refused ones included, the check accepts the spans of the file that
    start at an aligned offset not marked before, one more mark changes the verdict on its own
    offset only, and no aligned offset of the file is without a bit, so that its mark is never
    refused. -/
theorem spanBitmap_is_set (size : Nat) (marks : List Nat) :
    (∀ offset len,
      fileRecvSpanCheck size (spanBitmap size marks)
          (fileChunkCount size fileChunkDataMax / 8 + 1) offset len = true ↔
        fileChunkDataMax ∣ offset ∧ offset < size ∧ 1 ≤ len ∧
          len ≤ min fileChunkDataMax (size - offset) ∧ offset ∉ marks) ∧
    (∀ mark offset len, offset ≠ mark →
      fileRecvSpanCheck size
          (fileRecvSpanMark (spanBitmap size marks)
            (fileChunkCount size fileChunkDataMax / 8 + 1) mark)
          (fileChunkCount size fileChunkDataMax / 8 + 1) offset len =
        fileRecvSpanCheck size (spanBitmap size marks)
          (fileChunkCount size fileChunkDataMax / 8 + 1) offset len) ∧
    (∀ offset, fileChunkDataMax ∣ offset → offset < size →
      recvBitmapIndex (fileChunkCount size fileChunkDataMax / 8 + 1) offset =
        some (offset / fileChunkDataMax / 8) ∧
      (size < 2 ^ 64 → offset / fileChunkDataMax / 8 < 2 ^ 63)) := by
  refine ⟨fileRecvSpanCheck_spanBitmap marks, ?_, ?_⟩
  · intro mark offset len hother
    have hmark : fileRecvSpanMark (spanBitmap size marks)
        (fileChunkCount size fileChunkDataMax / 8 + 1) mark =
        spanBitmap size (marks ++ [mark]) := by
      simp only [spanBitmap, markAll, List.foldl_append, List.foldl_cons, List.foldl_nil]
    rw [hmark]
    apply Bool.eq_iff_iff.mpr
    rw [fileRecvSpanCheck_spanBitmap, fileRecvSpanCheck_spanBitmap]
    simp [hother]
  · intro offset hdvd hlt
    exact ⟨recvBitmapIndex_of_lt hdvd hlt, fun hsize => by unfold fileChunkDataMax; omega⟩

end TCPClient
