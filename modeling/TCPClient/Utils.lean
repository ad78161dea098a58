import TCPClient.Lib.Octets

namespace TCPClient

open Octets

/-!
# `utils.h` / `utils.c` — constants, endianness helpers, number parsing

C strings are modelled by their contents, the bytes before the NUL; a buffer of known length
by its bytes.  Unsigned machine words are `Nat`s below their width, narrowed where the source
narrows.
-/

/-- A byte string. -/
abbrev Bytes := List UInt8

/-! ### Constants -/

@[simp] def maxUsernameLen : Nat := 32
@[simp] def maxPasswordLen : Nat := 64
@[simp] def maxGroupNameLen : Nat := 32
@[simp] def maxFilenameLen : Nat := 256
@[simp] def maxMessageLen : Nat := 65535

@[simp] def protoMagic : Nat := 0xCAFE
@[simp] def protoHeaderSize : Nat := 5
/-- The 1 MiB safety cap the frame builders check. -/
@[simp] def protoMaxPayload : Nat := 1024 * 1024

/-! ### Endianness helpers -/

def utilsWriteU16Be (val : Nat) : Bytes := beOctets 2 val
def utilsWriteU32Be (val : Nat) : Bytes := beOctets 4 val
def utilsWriteU64Be (val : Nat) : Bytes := beOctets 8 val

def utilsReadU16Be (buf : Bytes) : Nat := beValue (buf.take 2)
def utilsReadU32Be (buf : Bytes) : Nat := beValue (buf.take 4)
def utilsReadU64Be (buf : Bytes) : Nat := beValue (buf.take 8)

@[simp] theorem length_utilsWriteU16Be (val : Nat) : (utilsWriteU16Be val).length = 2 :=
  length_beOctets 2 val

@[simp] theorem length_utilsWriteU32Be (val : Nat) : (utilsWriteU32Be val).length = 4 :=
  length_beOctets 4 val

@[simp] theorem length_utilsWriteU64Be (val : Nat) : (utilsWriteU64Be val).length = 8 :=
  length_beOctets 8 val

theorem utilsReadU16Be_write (val : Nat) (rest : Bytes) :
    utilsReadU16Be (utilsWriteU16Be val ++ rest) = val % 2 ^ 16 := by
  rw [utilsReadU16Be, List.take_left' (length_utilsWriteU16Be val), utilsWriteU16Be,
    beValue_beOctets]

theorem utilsReadU32Be_write (val : Nat) (rest : Bytes) :
    utilsReadU32Be (utilsWriteU32Be val ++ rest) = val % 2 ^ 32 := by
  rw [utilsReadU32Be, List.take_left' (length_utilsWriteU32Be val), utilsWriteU32Be,
    beValue_beOctets]

theorem utilsReadU64Be_write (val : Nat) (rest : Bytes) :
    utilsReadU64Be (utilsWriteU64Be val ++ rest) = val % 2 ^ 64 := by
  rw [utilsReadU64Be, List.take_left' (length_utilsWriteU64Be val), utilsWriteU64Be,
    beValue_beOctets]

/-! ### `utils_parse_u64_range` -/

/-- The loop of `utils_parse_u64_range`: one digit at a time, refusing a non-digit and a value
    that would not fit in 64 bits. -/
def parseU64From (v : Nat) : Bytes → Option Nat
  | [] => some v
  | b :: bs =>
    if ¬ IsDigit b then none
    else if (2 ^ 64 - 1 - (b.toNat - 48)) / 10 < v then none
    else parseU64From (v * 10 + (b.toNat - 48)) bs

/-- `utils_parse_u64_range`: an empty range, a non-digit or an overflow is refused. -/
def utilsParseU64Range (range : Bytes) : Option Nat :=
  if range = [] then none else parseU64From 0 range

/-- The overflow test inside the loop is exact: it refuses precisely the digit that would take
    the value to `2^64` or beyond. -/
theorem overflow_test_iff {v d : Nat} (hd : d < 10) :
    (2 ^ 64 - 1 - d) / 10 < v ↔ 2 ^ 64 ≤ v * 10 + d := by
  omega

/-- From a value that fits, the loop succeeds exactly on digit strings whose number still fits,
    and then returns that number. -/
theorem parseU64From_eq (v : Nat) (bs : Bytes) (hv : v < 2 ^ 64) (n : Nat) :
    parseU64From v bs = some n ↔
      (∀ b ∈ bs, IsDigit b) ∧ decimalValue v bs < 2 ^ 64 ∧ n = decimalValue v bs := by
  induction bs generalizing v with
  | nil =>
    simp only [parseU64From, Option.some.injEq, decimalValue_nil, List.not_mem_nil,
      IsEmpty.forall_iff, implies_true, true_and, hv]
    exact eq_comm
  | cons b bs ih =>
    rw [parseU64From, decimalValue_cons]
    by_cases hb : IsDigit b
    · have hd : b.toNat - 48 < 10 := by unfold IsDigit at hb; omega
      rw [if_neg (not_not_intro hb)]
      by_cases hov : 2 ^ 64 ≤ v * 10 + (b.toNat - 48)
      · rw [if_pos ((overflow_test_iff hd).mpr hov)]
        have hle := le_decimalValue (v * 10 + (b.toNat - 48)) bs
        constructor
        · intro h; exact absurd h (by simp)
        · rintro ⟨_, hlt, _⟩; omega
      · rw [if_neg (fun h => hov ((overflow_test_iff hd).mp h)), ih _ (by omega)]
        simp [hb]
    · rw [if_pos hb]
      constructor
      · intro h; exact absurd h (by simp)
      · rintro ⟨hall, _⟩; exact absurd (hall b (by simp)) hb

/-- **Number parsing is exact.** A range is accepted if and only if it is a non-empty digit
    string whose value fits in 64 bits, and it is read as that value. -/
theorem utilsParseU64Range_eq_some (range : Bytes) (n : Nat) :
    utilsParseU64Range range = some n ↔
      range ≠ [] ∧ (∀ b ∈ range, IsDigit b) ∧ decimalValue 0 range < 2 ^ 64 ∧
        n = decimalValue 0 range := by
  unfold utilsParseU64Range
  by_cases h : range = []
  · simp [h]
  · rw [if_neg h, parseU64From_eq 0 range (by decide)]
    simp [h]

/-! ### The same in 64-bit words -/

/-- The loop of `utils_parse_u64_range` in `uint64_t` arithmetic, which would wrap around. -/
def parseWordFrom (v : UInt64) : Bytes → Option UInt64
  | [] => some v
  | b :: bs =>
    if ¬ IsDigit b then none
    else if v > (0xFFFFFFFFFFFFFFFF - (b - 48).toUInt64) / 10 then none
    else parseWordFrom (v * 10 + (b - 48).toUInt64) bs

/-- `utils_parse_u64_range` in `uint64_t` arithmetic. -/
def utilsParseWordRange (range : Bytes) : Option UInt64 :=
  if range = [] then none else parseWordFrom 0 range

theorem toNat_digit {b : UInt8} (hb : IsDigit b) : (b - 48).toUInt64.toNat = b.toNat - 48 := by
  have hle : (48 : UInt8) ≤ b := UInt8.le_iff_toNat_le.mpr hb.1
  rw [UInt8.toNat_toUInt64, UInt8.toNat_sub_of_le b 48 hle]
  rfl

/-- **No wrap-around**: where the loop goes on, its product and sum are exact, so that it
    computes what it would compute without a word size. -/
theorem parseWordFrom_toNat (v : UInt64) (bs : Bytes) :
    (parseWordFrom v bs).map UInt64.toNat = parseU64From v.toNat bs := by
  induction bs generalizing v with
  | nil => rfl
  | cons b bs ih =>
    rw [parseWordFrom, parseU64From]
    by_cases hb : IsDigit b
    swap
    · rw [if_pos hb, if_pos hb]
      rfl
    rw [if_neg (not_not_intro hb), if_neg (not_not_intro hb)]
    have hdigit := toNat_digit hb
    have hd : b.toNat - 48 < 10 := by unfold IsDigit at hb; omega
    generalize (b - 48).toUInt64 = d at hdigit ⊢
    have hv : v.toNat < 2 ^ 64 := v.toNat_lt
    have hbound : ((0xFFFFFFFFFFFFFFFF - d) / 10).toNat = (2 ^ 64 - 1 - (b.toNat - 48)) / 10 := by
      have hsub : (0xFFFFFFFFFFFFFFFF - d).toNat = 2 ^ 64 - 1 - d.toNat :=
        UInt64.toNat_sub_of_le _ _ (UInt64.le_iff_toNat_le.mpr (by
          have hmax : (0xFFFFFFFFFFFFFFFF : UInt64).toNat = 2 ^ 64 - 1 := rfl
          omega))
      rw [UInt64.toNat_div, hsub, hdigit]
      rfl
    have htest : v > (0xFFFFFFFFFFFFFFFF - d) / 10 ↔
        (2 ^ 64 - 1 - (b.toNat - 48)) / 10 < v.toNat := by
      rw [gt_iff_lt, UInt64.lt_iff_toNat_lt, hbound]
    by_cases hov : v > (0xFFFFFFFFFFFFFFFF - d) / 10
    · rw [if_pos hov, if_pos (htest.mp hov)]
      rfl
    · rw [if_neg hov, if_neg (fun h => hov (htest.mpr h)), ih]
      -- the guard keeps the product and the sum below `2 ^ 64`
      have hfit : v.toNat * 10 + (b.toNat - 48) < 2 ^ 64 := by
        by_contra hge
        exact hov (htest.mpr ((overflow_test_iff hd).mpr (by omega)))
      have hnext : (v * 10 + d).toNat = v.toNat * 10 + (b.toNat - 48) := by
        have hten : (10 : UInt64).toNat = 10 := rfl
        rw [UInt64.toNat_add, UInt64.toNat_mul, hten, hdigit]
        omega
      rw [hnext]

theorem utilsParseWordRange_toNat (range : Bytes) :
    (utilsParseWordRange range).map UInt64.toNat = utilsParseU64Range range := by
  unfold utilsParseWordRange utilsParseU64Range
  split_ifs
  · rfl
  · exact parseWordFrom_toNat 0 range

/-! ### Transfer ids -/

/-- A digit string of a value that fits `uint32_t`, and the value. -/
structure TidDigits (digits : Bytes) (tid : Nat) : Prop where
  ne_nil : digits ≠ []
  digit : ∀ b ∈ digits, IsDigit b
  value : decimalValue 0 digits = tid
  le : tid ≤ 2 ^ 32 - 1

/-- Parsing and narrowing, as both callers do it. -/
theorem parse_filter_eq_some {digits : Bytes} {tid : Nat} :
    (utilsParseU64Range digits).filter (fun tid => tid ≤ 2 ^ 32 - 1) = some tid ↔
      TidDigits digits tid := by
  rw [Option.filter_eq_some_iff, utilsParseU64Range_eq_some, decide_eq_true_eq]
  constructor
  · rintro ⟨⟨hne, hdigit, -, hvalue⟩, hle⟩
    exact ⟨hne, hdigit, hvalue.symm, hle⟩
  · rintro ⟨hne, hdigit, hvalue, hle⟩
    exact ⟨⟨hne, hdigit, by omega, hvalue.symm⟩, hle⟩

/-- What both callers do with the answer of `utils_parse_u64_range`. -/
theorem narrowed_eq_filter {parsed answer : Option Nat} (hnone : parsed = none → answer = none)
    (hsome : ∀ tid, parsed = some tid → answer = if tid > 2 ^ 32 - 1 then none else some tid) :
    answer = parsed.filter fun tid => tid ≤ 2 ^ 32 - 1 := by
  cases hparsed : parsed with
  | none => exact hnone hparsed
  | some tid =>
    rw [hsome tid hparsed]
    by_cases hle : tid ≤ 2 ^ 32 - 1
    · rw [if_neg (by omega), Option.filter_some_pos (by simpa using hle)]
    · rw [if_pos (by omega), Option.filter_some_neg (by simpa using hle)]

theorem tidDigits_decimal {tid : Nat} (h : tid < 2 ^ 32) : TidDigits (decimal tid) tid :=
  ⟨decimal_ne_nil tid, fun _ hb => mem_decimal hb, decimalValue_decimal tid, by omega⟩

end TCPClient
