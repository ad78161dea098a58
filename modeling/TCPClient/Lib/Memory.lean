import Mathlib.Data.List.Basic
import Mathlib.Data.List.TakeWhile

/-!
# Checked reads through a pointer

A pointer is either null or can read a known stretch of octets from where it points; a read
outside that stretch has no result.  The C primitives that matter to a program handed a
buffer it did not fill are defined on top:

* `read p off n` — a bounded access (`memcpy`, a fixed-width load) of `n` octets;
* `cstr p off` — the C string at an offset (`strlen`, `printf("%s")`, `strstr`): every octet
  up to and including the first NUL is read;
* `memchr p off n` — the bounded search for a NUL;
* `store cap written octets` — a write behind what a buffer of `cap` octets holds already.

`Local f` says that `f` never looks at more than it needs: what it computes from a stretch of
memory it computes from every longer one.  The primitives are local and `Local.bind` composes
them, so a whole program built from them is (`Local.span_eq`): if it succeeds on a payload
alone, nothing behind the payload can matter.

For a payload made of fields with a NUL behind each, `memchr_field` and `cstr_span` say what the
two searches find, and `drop_behind_field` where the next field starts.
-/

namespace Memory

/-- A pointer: null, or the octets readable from where it points. -/
abbrev Ptr := Option (List UInt8)

/-- The pointer to a payload inside a buffer: null for an empty payload, otherwise the
    payload and whatever follows it. -/
def span (pl rest : List UInt8) : Ptr := if pl = [] then none else some (pl ++ rest)

/-- Access `n` octets at offset `off`; an access of no octet touches nothing. -/
def read (p : Ptr) (off n : Nat) : Option (List UInt8) :=
  if n = 0 then some []
  else p.bind fun m => if off + n ≤ m.length then some ((m.drop off).take n) else none

/-- The C string at offset `off`, without its NUL. -/
def cstr (p : Ptr) (off : Nat) : Option (List UInt8) :=
  p.bind fun m => if 0 ∈ m.drop off then some ((m.drop off).takeWhile (· ≠ 0)) else none

/-- `memchr(p + off, '\0', n)`: the distance of the first NUL, if there is one among the
    first `n` octets. -/
def memchr (p : Ptr) (off : Nat) : Nat → Option (Option Nat)
  | 0 => some none
  | n + 1 => (read p off 1).bind fun b =>
      if b = [0] then some (some 0) else (memchr p (off + 1) n).map (Option.map (· + 1))

@[simp] theorem read_zero (p : Ptr) (off : Nat) : read p off 0 = some [] := rfl

@[simp] theorem span_nil (rest : List UInt8) : span [] rest = none := rfl

theorem span_of_ne_nil {pl : List UInt8} (h : pl ≠ []) (rest : List UInt8) :
    span pl rest = some (pl ++ rest) := if_neg h

/-! ### Locality -/

variable {α β : Type}

/-- What `f` computes from a stretch of memory it computes from every longer one. -/
def Local (f : Ptr → Option α) : Prop :=
  ∀ m rest r, f (some m) = some r → f (some (m ++ rest)) = some r

theorem Local.const (r : Option α) : Local fun _ => r := fun _ _ _ h => h

/-- Sequencing two local computations is local. -/
theorem Local.bind {f : Ptr → Option α} {g : α → Ptr → Option β} (hf : Local f)
    (hg : ∀ a, Local (g a)) : Local fun p => (f p).bind fun a => g a p := by
  intro m rest r h
  obtain ⟨a, ha, hr⟩ := Option.bind_eq_some_iff.mp h
  exact Option.bind_eq_some_iff.mpr ⟨a, hf m rest a ha, hg a m rest r hr⟩

theorem Local.map {f : Ptr → Option α} (hf : Local f) (g : α → β) :
    Local fun p => (f p).map g := by
  intro m rest r h
  obtain ⟨a, ha, hr⟩ := Option.map_eq_some_iff.mp h
  exact Option.map_eq_some_iff.mpr ⟨a, hf m rest a ha, hr⟩

/-- A branch on something that is not in the memory. -/
theorem Local.ite {c : Prop} [Decidable c] {f g : Ptr → Option α} (hf : Local f)
    (hg : Local g) : Local fun p => if c then f p else g p := by
  by_cases h : c
  · simpa only [if_pos h] using hf
  · simpa only [if_neg h] using hg

theorem local_read (off n : Nat) : Local fun p => read p off n := by
  intro m rest r h
  by_cases hn : n = 0
  · subst hn; exact h
  simp only [read, if_neg hn, Option.bind_some] at h ⊢
  split at h
  · rename_i hle
    have hd : off ≤ m.length := by omega
    have ht : n ≤ (m.drop off).length := by rw [List.length_drop]; omega
    rw [if_pos (by rw [List.length_append]; omega), List.drop_append_of_le_length hd,
      List.take_append_of_le_length ht]
    exact h
  · exact absurd h (by simp)

/-- Octets behind the NUL do not change a C string. -/
theorem takeWhile_append_of_mem {s : List UInt8} (h : 0 ∈ s) (rest : List UInt8) :
    (s ++ rest).takeWhile (· ≠ 0) = s.takeWhile (· ≠ 0) := by
  induction s with
  | nil => exact absurd h (by simp)
  | cons b s ih =>
    by_cases hb : b = 0
    · simp [hb]
    · have hs : 0 ∈ s := by
        rcases List.mem_cons.mp h with h0 | h0
        · exact absurd h0.symm hb
        · exact h0
      simp only [List.cons_append, List.takeWhile_cons, ih hs]

theorem local_cstr (off : Nat) : Local fun p => cstr p off := by
  intro m rest r h
  simp only [cstr, Option.bind_some] at h ⊢
  split at h
  · rename_i hmem
    have hd : off ≤ m.length := by
      by_contra hlt
      rw [List.drop_eq_nil_of_le (by omega)] at hmem
      exact absurd hmem (by simp)
    -- the NUL was found before the octets that were added
    rw [List.drop_append_of_le_length hd, if_pos (List.mem_append_left _ hmem),
      takeWhile_append_of_mem hmem]
    exact h
  · exact absurd h (by simp)

/-- **Nothing behind the payload matters** to a local computation that succeeds on the
    payload alone. -/
theorem Local.span_eq {f : Ptr → Option α} (hf : Local f) {pl : List UInt8} {r : α}
    (h : f (span pl []) = some r) (rest : List UInt8) : f (span pl rest) = some r := by
  by_cases hpl : pl = []
  · subst hpl; exact h
  · rw [span_of_ne_nil hpl, List.append_nil] at h
    rw [span_of_ne_nil hpl]
    exact hf pl rest r h

/-- A computation over a payload in a buffer that reads nothing but the payload: it succeeds
    with one result, whatever follows the payload. -/
def Confined (f : Ptr → Option α) (pl : List UInt8) : Prop :=
  ∃ r, ∀ rest, f (span pl rest) = some r

/-- A local computation is confined as soon as it succeeds on the payload alone. -/
theorem Local.confined_iff {f : Ptr → Option α} (hf : Local f) (pl : List UInt8) :
    Confined f pl ↔ (f (span pl [])).isSome = true := by
  constructor
  · rintro ⟨r, hr⟩
    rw [hr []]
    rfl
  · intro h
    obtain ⟨r, hr⟩ := Option.isSome_iff_exists.mp h
    exact ⟨r, hf.span_eq hr⟩

/-! ### Reads inside a payload -/

theorem length_read {p : Ptr} {off n : Nat} {bytes : List UInt8} (h : read p off n = some bytes) :
    bytes.length = n := by
  rw [read] at h
  split_ifs at h with hzero
  · rw [← Option.some.inj h, hzero]
    rfl
  · obtain ⟨m, -, h⟩ := Option.bind_eq_some_iff.mp h
    split_ifs at h
    rw [← Option.some.inj h, List.length_take, List.length_drop]
    omega

/-- A bounded access inside the payload yields the payload's octets. -/
theorem read_span {pl : List UInt8} {off n : Nat} (h : off + n ≤ pl.length)
    (rest : List UInt8) : read (span pl rest) off n = some ((pl.drop off).take n) := by
  apply Local.span_eq (local_read off n)
  by_cases hn : n = 0
  · subst hn; simp
  · have hne : pl ≠ [] := by rintro rfl; simp at h; omega
    rw [span_of_ne_nil hne, List.append_nil, read, if_neg hn, Option.bind_some, if_pos h]

/-- The C string at an offset is confined to the payload exactly when a NUL follows the
    offset inside the payload. -/
theorem cstr_span_nil (pl : List UInt8) (off : Nat) :
    cstr (span pl []) off =
      if 0 ∈ pl.drop off then some ((pl.drop off).takeWhile (· ≠ 0)) else none := by
  by_cases hpl : pl = []
  · subst hpl; simp [cstr]
  · rw [span_of_ne_nil hpl, List.append_nil, cstr, Option.bind_some]

/-- A bounded access succeeds exactly inside the payload. -/
theorem isSome_read_span_nil (pl : List UInt8) (off : Nat) {n : Nat} (hn : 0 < n) :
    (read (span pl []) off n).isSome = true ↔ off + n ≤ pl.length := by
  constructor
  · intro h
    by_cases hpl : pl = []
    · subst hpl
      simp [read, Nat.pos_iff_ne_zero.mp hn] at h
    · rw [span_of_ne_nil hpl, List.append_nil, read, if_neg (by omega), Option.bind_some] at h
      by_contra hlt
      rw [if_neg hlt] at h
      exact absurd h (by simp)
  · intro h
    rw [read_span h]
    rfl

/-- The bounded search never leaves a payload that contains its window, and finds the first
    NUL of the window. -/
theorem memchr_span {pl : List UInt8} (rest : List UInt8) {off n : Nat}
    (h : off + n ≤ pl.length) :
    memchr (span pl rest) off n = some (((pl.drop off).take n).findIdx? (· = 0)) := by
  induction n generalizing off with
  | zero => simp [memchr]
  | succ n ih =>
    have hlt : off < pl.length := by omega
    rw [memchr, read_span (by omega), Option.bind_some, ih (by omega),
      List.drop_eq_getElem_cons hlt, List.take_succ_cons, List.take_zero, List.take_succ_cons,
      List.findIdx?_cons]
    by_cases hb : pl[off] = 0
    · simp [hb]
    · simp [hb]

/-! ### Fields that end with a NUL -/

/-- The C string at the front of a name and its NUL. -/
theorem takeWhile_name {name : List UInt8} (hnul : 0 ∉ name) (rest : List UInt8) :
    (name ++ 0 :: rest).takeWhile (· ≠ 0) = name := by
  have hall : ∀ b ∈ name, decide (b ≠ 0) = true := by
    intro b hb
    exact decide_eq_true fun h => hnul (h ▸ hb)
  rw [List.takeWhile_append_of_pos hall, List.takeWhile_cons_of_neg (by simp), List.append_nil]

/-- A text with a NUL is its C string, the NUL and the rest. -/
theorem eq_takeWhile_append {tail : List UInt8} (h : 0 ∈ tail) :
    tail = tail.takeWhile (· ≠ 0) ++
      0 :: tail.drop ((tail.takeWhile (· ≠ 0)).length + 1) := by
  obtain ⟨name, rest, rfl, hnul⟩ := List.eq_append_cons_of_mem h
  rw [takeWhile_name hnul, ← List.drop_drop, List.drop_left, List.drop_one, List.tail_cons]

/-- The search for the first NUL stops behind the field. -/
theorem findIdx?_field {field : List UInt8} (hnul : 0 ∉ field) (tail : List UInt8) :
    (field ++ 0 :: tail).findIdx? (· = 0) = some field.length := by
  induction field with
  | nil => rw [List.nil_append, List.findIdx?_cons, if_pos (by simp), List.length_nil]
  | cons b field ih =>
    obtain ⟨hb, hrest⟩ := not_or.mp (mt List.mem_cons.mpr hnul)
    rw [List.cons_append, List.findIdx?_cons, ih hrest, if_neg (by simpa using Ne.symm hb)]
    rfl

theorem findIdx?_nul_eq_some {s : List UInt8} {l : Nat} :
    s.findIdx? (· = 0) = some l ↔
      ∃ field tail, s = field ++ 0 :: tail ∧ 0 ∉ field ∧ field.length = l := by
  constructor
  · intro h
    have hmem : 0 ∈ s := by
      by_contra hnul
      have hnone : s.findIdx? (· = 0) = none := by
        rw [List.findIdx?_eq_none_iff]
        exact fun b hb => decide_eq_false fun h0 => hnul (h0 ▸ hb)
      rw [hnone] at h
      exact absurd h (by simp)
    obtain ⟨field, tail, rfl, hnul⟩ := List.eq_append_cons_of_mem hmem
    rw [findIdx?_field hnul] at h
    exact ⟨field, tail, rfl, hnul, Option.some.inj h⟩
  · rintro ⟨field, tail, rfl, hnul, rfl⟩
    exact findIdx?_field hnul tail

/-- A field that is found is what stands between its start and the first NUL behind it. -/
theorem memchr_field {pl rest : List UInt8} {off l : Nat} (hoff : off ≤ pl.length) :
    memchr (span pl rest) off (pl.length - off) = some (some l) ↔
      ∃ field tail, pl.drop off = field ++ 0 :: tail ∧ 0 ∉ field ∧ field.length = l := by
  have hwhole : (pl.drop off).take (pl.length - off) = pl.drop off :=
    List.take_of_length_le (by rw [List.length_drop])
  rw [memchr_span rest (by omega), hwhole, Option.some.injEq, findIdx?_nul_eq_some]

/-- Behind a field and its NUL stands the rest, and the field is all inside the payload. -/
theorem drop_behind_field {pl field tail : List UInt8} {off : Nat}
    (h : pl.drop off = field ++ 0 :: tail) :
    pl.drop (off + field.length + 1) = tail ∧ (pl.drop off).take field.length = field ∧
      off + field.length + 1 + tail.length = pl.length := by
  have hlen := congrArg List.length h
  simp only [List.length_drop, List.length_append, List.length_cons] at hlen
  refine ⟨?_, by rw [h, List.take_left], by omega⟩
  rw [Nat.add_assoc, ← List.drop_drop, h, ← List.drop_drop, List.drop_left, List.drop_one,
    List.tail_cons]

/-- A field found inside the payload ends inside it. -/
theorem memchr_span_lt {pl rest : List UInt8} {off l : Nat} (hoff : off ≤ pl.length)
    (h : memchr (span pl rest) off (pl.length - off) = some (some l)) : off + l < pl.length := by
  obtain ⟨field, tail, hfield, -, rfl⟩ := (memchr_field hoff).mp h
  have hin := (drop_behind_field hfield).2.2
  omega

/-- A C string inside the payload is read from the payload. -/
theorem cstr_span {pl name tail : List UInt8} {off : Nat} (h : pl.drop off = name ++ 0 :: tail)
    (hnul : 0 ∉ name) (rest : List UInt8) : cstr (span pl rest) off = some name := by
  apply Local.span_eq (local_cstr off)
  rw [cstr_span_nil, h, if_pos (by simp), takeWhile_name hnul]

/-! ### Checked writes -/

/-- Put octets at the end of what has been written to a buffer of `cap` octets; `none` is a
    write behind the end of the buffer. -/
def store (cap : Nat) (written octets : List UInt8) : Option (List UInt8) :=
  if written.length + octets.length ≤ cap then some (written ++ octets) else none

theorem store_eq {cap : Nat} {written octets : List UInt8}
    (h : written.length + octets.length ≤ cap) :
    store cap written octets = some (written ++ octets) := if_pos h

end Memory
