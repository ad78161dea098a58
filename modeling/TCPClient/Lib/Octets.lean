import Mathlib.Data.List.Basic
import Mathlib.Data.List.TakeWhile
import Mathlib.Data.Nat.Bitwise
import Mathlib.Tactic.Ring

/-!
# Octet strings: big-endian words, decimal numerals, text literals

Byte-level vocabulary shared by every binary or text protocol:

* `beOctets k n` / `beValue bs` — a word of `k` octets, most significant octet first, and
  its value; `beValue_beOctets` is the round trip (modulo the width of the word).
* `decimal n` — the numeral a `printf("%u")` family directive prints, with its digits
  (`mem_decimal`) and its value (`decimalValue_decimal`).
* `utf8 s` — the octets of a text literal.
-/

namespace Octets

/-! ### Text literals -/

/-- The UTF-8 octets of a text literal. -/
def utf8 (s : String) : List UInt8 := s.toUTF8.data.toList

/-! ### Scanning -/

/-- Behind what a scan takes stands what it leaves. -/
theorem drop_length_takeWhile (q : UInt8 → Bool) (p : List UInt8) :
    p.drop (p.takeWhile q).length = p.dropWhile q := by
  have h := congrArg (List.drop (p.takeWhile q).length)
    (List.takeWhile_append_dropWhile (p := q) (l := p))
  rw [List.drop_left] at h
  exact h.symm

/-! ### Big-endian words -/

/-- The low `k` octets of `n`, most significant first. -/
def beOctets : Nat → Nat → List UInt8
  | 0, _ => []
  | k + 1, n => UInt8.ofNat (n >>> (8 * k)) :: beOctets k n

/-- The value of an octet string read most significant octet first. -/
def beValue : List UInt8 → Nat
  | [] => 0
  | b :: bs => b.toNat <<< (8 * bs.length) ||| beValue bs

@[simp] theorem length_beOctets (k n : Nat) : (beOctets k n).length = k := by
  induction k with
  | zero => rfl
  | succ k ih => simp [beOctets, ih]

/-- A value read from `bs` fits in `bs.length` octets. -/
theorem beValue_lt (bs : List UInt8) : beValue bs < 2 ^ (8 * bs.length) := by
  induction bs with
  | nil => simp [beValue]
  | cons b bs ih =>
    have hb : b.toNat < 2 ^ 8 := b.toNat_lt
    simp only [beValue, List.length_cons]
    apply Nat.or_lt_two_pow
    · rw [Nat.shiftLeft_eq, show 8 * (bs.length + 1) = 8 + 8 * bs.length by ring, pow_add]
      exact Nat.mul_lt_mul_of_pos_right hb (Nat.two_pow_pos _)
    · exact lt_of_lt_of_le ih (Nat.pow_le_pow_right (by decide) (by omega))

/-- The leading octet contributes its place value: the fields of the word do not overlap. -/
theorem beValue_cons (b : UInt8) (bs : List UInt8) :
    beValue (b :: bs) = b.toNat * 2 ^ (8 * bs.length) + beValue bs := by
  rw [beValue, ← Nat.shiftLeft_add_eq_or_of_lt (beValue_lt bs), Nat.shiftLeft_eq]

/-- **Round trip.** A word written in `k` octets is read back modulo its width. -/
theorem beValue_beOctets (k n : Nat) : beValue (beOctets k n) = n % 2 ^ (8 * k) := by
  induction k with
  | zero => simp [beOctets, beValue, Nat.mod_one]
  | succ k ih =>
    rw [beOctets, beValue_cons, ih, length_beOctets, UInt8.toNat_ofNat', Nat.shiftRight_eq_div_pow,
      show 8 * (k + 1) = 8 * k + 8 by ring, pow_add, Nat.mod_mul]
    ring

/-- A value that fits its width survives the round trip unchanged. -/
theorem beValue_beOctets_of_lt {k n : Nat} (h : n < 2 ^ (8 * k)) :
    beValue (beOctets k n) = n := by
  rw [beValue_beOctets, Nat.mod_eq_of_lt h]

/-- Two values that fit their width and are written alike are equal. -/
theorem beOctets_inj {k m n : Nat} (hm : m < 2 ^ (8 * k)) (hn : n < 2 ^ (8 * k))
    (h : beOctets k m = beOctets k n) : m = n := by
  rw [← beValue_beOctets_of_lt hm, h, beValue_beOctets_of_lt hn]

/-! ### Decimal numerals -/

/-- The decimal numeral of `n`, without leading zeros. -/
def decimal (n : Nat) : List UInt8 := (Nat.toDigits 10 n).map (fun c => UInt8.ofNat c.toNat)

/-- An ASCII decimal digit. -/
def IsDigit (b : UInt8) : Prop := 48 ≤ b.toNat ∧ b.toNat ≤ 57

instance : DecidablePred IsDigit := fun b =>
  inferInstanceAs (Decidable (48 ≤ b.toNat ∧ b.toNat ≤ 57))

/-- The number a digit string denotes, continuing from `v`. -/
def decimalValue (v : Nat) (bs : List UInt8) : Nat :=
  bs.foldl (fun v b => v * 10 + (b.toNat - 48)) v

@[simp] theorem decimalValue_nil (v : Nat) : decimalValue v [] = v := rfl

@[simp] theorem decimalValue_cons (v : Nat) (b : UInt8) (bs : List UInt8) :
    decimalValue v (b :: bs) = decimalValue (v * 10 + (b.toNat - 48)) bs := by
  simp only [decimalValue, List.foldl_cons]

theorem decimalValue_append (v : Nat) (bs cs : List UInt8) :
    decimalValue v (bs ++ cs) = decimalValue (decimalValue v bs) cs :=
  List.foldl_append

/-- Reading further digits never makes the value smaller. -/
theorem le_decimalValue (v : Nat) (bs : List UInt8) : v ≤ decimalValue v bs := by
  induction bs generalizing v with
  | nil => exact le_refl v
  | cons b bs ih =>
    rw [decimalValue_cons]
    have hstep : v ≤ v * 10 + (b.toNat - 48) := by omega
    exact le_trans hstep (ih _)

theorem decimal_ne_nil (n : Nat) : decimal n ≠ [] := by
  simp [decimal]

/-- A number below `10^k` has at most `k` digits. -/
theorem length_decimal_le {n k : Nat} (hk : 0 < k) (h : n < 10 ^ k) : (decimal n).length ≤ k := by
  rw [decimal, List.length_map]
  exact (Nat.length_toDigits_le_iff (by decide) hk).mpr h

private theorem digit_toNat {c : Char} (hc : c.isDigit = true) :
    48 ≤ c.toNat ∧ c.toNat ≤ 57 := by
  simp only [Char.isDigit, Bool.and_eq_true, decide_eq_true_eq] at hc
  exact ⟨UInt32.le_iff_toNat_le.mp hc.1, UInt32.le_iff_toNat_le.mp hc.2⟩

/-- A numeral consists of digits only. -/
theorem mem_decimal {n : Nat} {b : UInt8} (hb : b ∈ decimal n) : IsDigit b := by
  simp only [decimal, List.mem_map] at hb
  obtain ⟨c, hc, rfl⟩ := hb
  have h := digit_toNat (Nat.isDigit_of_mem_toDigits (by decide) (by decide) hc)
  simp only [IsDigit, UInt8.toNat_ofNat']
  omega

/-- **The numeral denotes its number.** -/
theorem decimalValue_decimal (n : Nat) : decimalValue 0 (decimal n) = n := by
  have key : ∀ (l : List Char) (v : Nat), (∀ c ∈ l, c.isDigit = true) →
      decimalValue v (l.map fun c => UInt8.ofNat c.toNat) = Nat.ofDigitChars 10 l v := by
    intro l
    induction l with
    | nil => intro v _; rfl
    | cons c cs ih =>
      intro v hl
      have hc := digit_toNat (hl c (by simp))
      have h8 : c.toNat % 2 ^ 8 = c.toNat := Nat.mod_eq_of_lt (by omega)
      rw [List.map_cons, decimalValue_cons, ih _ (fun d hd => hl d (by simp [hd])),
        Nat.ofDigitChars_cons, UInt8.toNat_ofNat', h8, Nat.mul_comm]
      rfl
  rw [decimal, key _ _ (fun c hc => Nat.isDigit_of_mem_toDigits (by decide) (by decide) hc),
    Nat.ofDigitChars_ten_toDigits]

end Octets
