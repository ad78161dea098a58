import TCPClient.Protocol
import TCPClient.Lib.Memory

namespace TCPClient

open Octets Memory

/-!
# `file_parse_init_payload` — the three fields of an INIT frame

`sender\0filename\0size_str\0`, cut with `memchr` and bounded by the payload length.  The
function reads through a pointer; an outer `none` is a read that leaves the readable memory,
an inner `none` the answer `-1`.  `fileParseInitPayload_span` says that on a payload inside a
buffer the first never happens, so that everything behind the parser can be stated with
`initFields`, a function of the payload alone; `initFields_eq_some` describes the payloads it
accepts, and `initFields_payload` is the round trip with `protocol_build_text3`.
-/

/-- The outputs of `file_parse_init_payload`. -/
structure InitFields where
  sender : Bytes
  filename : Bytes
  size : Nat
  deriving DecidableEq, Repr

/-- The last part of `file_parse_init_payload`, once the three fields are located at `0`, `s2`
    and `s3` with lengths `l1`, `l2`, `l3`. -/
def takeInitFields (payload : Ptr) (senderSz filenameSz l1 s2 l2 s3 l3 : Nat) :
    Option (Option InitFields) :=
  if l1 = 0 ∨ l1 ≥ senderSz then some none
  else if l2 = 0 ∨ l2 ≥ filenameSz then some none
  else if l3 = 0 then some none
  else
    (read payload s3 l3).bind fun digits =>
      match utilsParseU64Range digits with
      | none => some none
      | some size =>
        (read payload 0 l1).bind fun sender =>
          (read payload s2 l2).bind fun filename => some (some ⟨sender, filename, size⟩)

/-- `file_parse_init_payload`. -/
def fileParseInitPayload (payload : Ptr) (plen senderSz filenameSz : Nat) :
    Option (Option InitFields) :=
  (memchr payload 0 plen).bind fun
    | none => some none
    | some l1 =>
      let s2 := l1 + 1
      if s2 ≥ plen then some none
      else (memchr payload s2 (plen - s2)).bind fun
        | none => some none
        | some l2 =>
          let s3 := s2 + l2 + 1
          if s3 ≥ plen then some none
          else (memchr payload s3 (plen - s3)).bind fun
            | none => some none
            | some l3 => takeInitFields payload senderSz filenameSz l1 s2 l2 s3 l3

/-- What `recv_handle_init` takes from a payload. -/
def initFields (payload : Bytes) : Option InitFields :=
  (fileParseInitPayload (span payload []) payload.length maxUsernameLen maxFilenameLen).getD none

/-- The search for a field does not see what follows the payload. -/
private theorem memchr_span_rest {pl : Bytes} (rest : Bytes) {off : Nat}
    (hoff : off ≤ pl.length) :
    memchr (span pl rest) off (pl.length - off) = memchr (span pl []) off (pl.length - off) := by
  rw [memchr_span rest (by omega), memchr_span [] (by omega)]

private theorem takeInitFields_span {pl : Bytes} (rest : Bytes)
    {senderSz filenameSz l1 s2 l2 s3 l3 : Nat} (h1 : l1 ≤ pl.length) (h2 : s2 + l2 ≤ pl.length)
    (h3 : s3 + l3 ≤ pl.length) :
    ∃ r, takeInitFields (span pl rest) senderSz filenameSz l1 s2 l2 s3 l3 = some r ∧
      takeInitFields (span pl []) senderSz filenameSz l1 s2 l2 s3 l3 = some r := by
  unfold takeInitFields
  rw [read_span (by omega), read_span (by omega), read_span (by omega), read_span (by omega),
    read_span (by omega), read_span (by omega)]
  split_ifs
  · exact ⟨none, rfl, rfl⟩
  · exact ⟨none, rfl, rfl⟩
  · exact ⟨none, rfl, rfl⟩
  · simp only [Option.bind_some]
    cases utilsParseU64Range ((pl.drop s3).take l3) with
    | none => exact ⟨none, rfl, rfl⟩
    | some size => exact ⟨_, rfl, rfl⟩

/-- **The parser stays inside its payload**, and its answer is a function of the payload. -/
theorem fileParseInitPayload_span (pl rest : Bytes) :
    fileParseInitPayload (span pl rest) pl.length maxUsernameLen maxFilenameLen =
      some (initFields pl) := by
  have key : ∃ r,
      fileParseInitPayload (span pl rest) pl.length maxUsernameLen maxFilenameLen = some r ∧
      fileParseInitPayload (span pl []) pl.length maxUsernameLen maxFilenameLen = some r := by
    have hfirst : memchr (span pl rest) 0 pl.length = memchr (span pl []) 0 pl.length :=
      memchr_span_rest rest (Nat.zero_le pl.length)
    unfold fileParseInitPayload
    rw [hfirst]
    cases hm1 : memchr (span pl []) 0 pl.length with
    | none => rw [memchr_span [] (by omega)] at hm1; exact absurd hm1 (by simp)
    | some r1 =>
      cases r1 with
      | none => exact ⟨none, rfl, rfl⟩
      | some l1 =>
        have hl1 : 0 + l1 < pl.length := memchr_span_lt (Nat.zero_le _) hm1
        simp only [Option.bind_some]
        -- a payload that ends with the first NUL has no second field
        by_cases hs2 : l1 + 1 ≥ pl.length
        · exact ⟨none, by simp [hs2]⟩
        simp only [if_neg hs2]
        rw [memchr_span_rest rest (by omega)]
        cases hm2 : memchr (span pl []) (l1 + 1) (pl.length - (l1 + 1)) with
        | none => rw [memchr_span [] (by omega)] at hm2; exact absurd hm2 (by simp)
        | some r2 =>
          cases r2 with
          | none => exact ⟨none, rfl, rfl⟩
          | some l2 =>
            have hl2 := memchr_span_lt (by omega) hm2
            simp only [Option.bind_some]
            by_cases hs3 : l1 + 1 + l2 + 1 ≥ pl.length
            · exact ⟨none, by simp [hs3]⟩
            simp only [if_neg hs3]
            rw [memchr_span_rest rest (by omega)]
            cases hm3 : memchr (span pl []) (l1 + 1 + l2 + 1)
                (pl.length - (l1 + 1 + l2 + 1)) with
            | none => rw [memchr_span [] (by omega)] at hm3; exact absurd hm3 (by simp)
            | some r3 =>
              cases r3 with
              | none => exact ⟨none, rfl, rfl⟩
              | some l3 =>
                have hl3 := memchr_span_lt (by omega) hm3
                exact takeInitFields_span rest (by omega) (by omega) (by omega)
  obtain ⟨r, hrest, hnil⟩ := key
  rw [hrest, initFields, hnil, Option.getD_some]

/-! ### The accepted payloads -/

/-- What it takes for `file_parse_init_payload` to answer 0: three fields are found, none of
    them at the end of the payload, and they are good ones. -/
theorem fileParseInitPayload_eq_some {payload : Ptr} {plen senderSz filenameSz : Nat}
    {f : InitFields} :
    fileParseInitPayload payload plen senderSz filenameSz = some (some f) ↔
      ∃ l1 l2 l3, memchr payload 0 plen = some (some l1) ∧ l1 + 1 < plen ∧
        memchr payload (l1 + 1) (plen - (l1 + 1)) = some (some l2) ∧ l1 + 1 + l2 + 1 < plen ∧
        memchr payload (l1 + 1 + l2 + 1) (plen - (l1 + 1 + l2 + 1)) = some (some l3) ∧
        takeInitFields payload senderSz filenameSz l1 (l1 + 1) l2 (l1 + 1 + l2 + 1) l3 =
          some (some f) := by
  unfold fileParseInitPayload
  constructor
  · intro h
    obtain ⟨r1, hm1, h⟩ := Option.bind_eq_some_iff.mp h
    cases r1 with
    | none => exact absurd h (by simp)
    | some l1 =>
      dsimp only at h
      split_ifs at h with hs2
      · exact absurd h (by simp)
      obtain ⟨r2, hm2, h⟩ := Option.bind_eq_some_iff.mp h
      cases r2 with
      | none => exact absurd h (by simp)
      | some l2 =>
        dsimp only at h
        split_ifs at h with hs3
        · exact absurd h (by simp)
        obtain ⟨r3, hm3, h⟩ := Option.bind_eq_some_iff.mp h
        cases r3 with
        | none => exact absurd h (by simp)
        | some l3 => exact ⟨l1, l2, l3, hm1, by omega, hm2, by omega, hm3, h⟩
  · rintro ⟨l1, l2, l3, hm1, hs2, hm2, hs3, hm3, h⟩
    rw [hm1, Option.bind_some]
    dsimp only
    rw [if_neg (by omega), hm2, Option.bind_some]
    dsimp only
    rw [if_neg (by omega), hm3]
    exact h

/-- Fields that can be sent in an INIT payload. -/
structure InitFields.Wf (f : InitFields) : Prop where
  sender_nul : 0 ∉ f.sender
  sender_len : 1 ≤ f.sender.length ∧ f.sender.length ≤ 31
  filename_nul : 0 ∉ f.filename
  filename_len : 1 ≤ f.filename.length ∧ f.filename.length ≤ 255
  size_lt : f.size < 2 ^ 64

theorem takeInitFields_eq_some {pl : Bytes} (rest : Bytes)
    {senderSz filenameSz l1 s2 l2 s3 l3 : Nat} {f : InitFields} (h1 : l1 ≤ pl.length)
    (h2 : s2 + l2 ≤ pl.length) (h3 : s3 + l3 ≤ pl.length) :
    takeInitFields (span pl rest) senderSz filenameSz l1 s2 l2 s3 l3 = some (some f) ↔
      (0 < l1 ∧ l1 < senderSz) ∧ (0 < l2 ∧ l2 < filenameSz) ∧ 0 < l3 ∧
        utilsParseU64Range ((pl.drop s3).take l3) = some f.size ∧
        f.sender = pl.take l1 ∧ f.filename = (pl.drop s2).take l2 := by
  obtain ⟨sender, filename, size⟩ := f
  unfold takeInitFields
  rw [read_span (by omega), read_span (by omega), read_span (by omega)]
  simp only [Option.bind_some, List.drop_zero]
  split_ifs with hl1 hl2 hl3
  · simp only [Option.some.injEq, reduceCtorEq, false_iff]
    omega
  · simp only [Option.some.injEq, reduceCtorEq, false_iff]
    omega
  · simp only [Option.some.injEq, reduceCtorEq, false_iff]
    omega
  · cases utilsParseU64Range ((pl.drop s3).take l3) with
    | none => simp
    | some n =>
      simp only [Option.some.injEq, InitFields.mk.injEq]
      constructor
      · rintro ⟨rfl, rfl, rfl⟩
        exact ⟨by omega, by omega, by omega, rfl, rfl, rfl⟩
      · rintro ⟨-, -, -, rfl, rfl, rfl⟩
        exact ⟨rfl, rfl, rfl⟩

/-- **The accepted payloads**: three good fields with their NULs, and anything behind them. -/
theorem fileParseInitPayload_span_eq_some {pl rest : Bytes} {f : InitFields} :
    fileParseInitPayload (span pl rest) pl.length maxUsernameLen maxFilenameLen =
        some (some f) ↔
      f.Wf ∧ ∃ digits tail, pl = f.sender ++ 0 :: (f.filename ++ 0 :: (digits ++ 0 :: tail)) ∧
        digits ≠ [] ∧ (∀ b ∈ digits, IsDigit b) ∧ decimalValue 0 digits = f.size := by
  rw [fileParseInitPayload_eq_some]
  constructor
  · rintro ⟨l1, l2, l3, hm1, hs2, hm2, hs3, hm3, htake⟩
    obtain ⟨field1, tail1, hd1, hnul1, rfl⟩ := (memchr_field (Nat.zero_le _)).mp hm1
    obtain ⟨field2, tail2, hd2, hnul2, rfl⟩ := (memchr_field (by omega)).mp hm2
    obtain ⟨field3, tail3, hd3, -, rfl⟩ := (memchr_field (by omega)).mp hm3
    obtain ⟨hrest1, hfield1, hin1⟩ := drop_behind_field hd1
    obtain ⟨hrest2, hfield2, hin2⟩ := drop_behind_field hd2
    obtain ⟨-, hfield3, hin3⟩ := drop_behind_field hd3
    rw [Nat.zero_add] at hrest1 hin1
    rw [takeInitFields_eq_some rest (by omega) (by omega) (by omega), hfield2, hfield3] at htake
    obtain ⟨hlen1, hlen2, hlen3, hparse, hsender, hfilename⟩ := htake
    rw [List.drop_zero] at hfield1 hd1
    rw [hfield1] at hsender
    obtain ⟨hne, hdigit, hfits, hvalue⟩ := (utilsParseU64Range_eq_some _ _).mp hparse
    simp only [maxUsernameLen, maxFilenameLen] at hlen1 hlen2
    refine ⟨⟨hsender ▸ hnul1, by rw [hsender]; omega, hfilename ▸ hnul2, by rw [hfilename]; omega,
      by omega⟩, field3, tail3, ?_, hne, hdigit, hvalue.symm⟩
    -- each field starts where the NUL of the one before it stands
    rw [hsender, hfilename, ← hd3, hrest2, ← hd2, hrest1]
    exact hd1
  · rintro ⟨hwf, digits, tail, hpl, hne, hdigit, hvalue⟩
    have hd1 : pl.drop 0 = f.sender ++ 0 :: (f.filename ++ 0 :: (digits ++ 0 :: tail)) := hpl
    obtain ⟨hd2, hfield1, hin1⟩ := drop_behind_field hd1
    obtain ⟨hd3, hfield2, hin2⟩ := drop_behind_field hd2
    obtain ⟨-, hfield3, hin3⟩ := drop_behind_field hd3
    rw [Nat.zero_add] at hd2 hfield2 hd3 hfield3 hin1 hin2 hin3
    rw [List.drop_zero] at hfield1
    simp only [List.length_append, List.length_cons] at hin1 hin2
    have hnul3 : 0 ∉ digits := fun h => absurd (hdigit 0 h) (by decide)
    have hpos3 := List.length_pos_of_ne_nil hne
    have hlen1 := hwf.sender_len
    have hlen2 := hwf.filename_len
    refine ⟨f.sender.length, f.filename.length, digits.length,
      (memchr_field (Nat.zero_le _)).mpr ⟨_, _, hd1, hwf.sender_nul, rfl⟩, by omega,
      (memchr_field (by omega)).mpr ⟨_, _, hd2, hwf.filename_nul, rfl⟩, by omega,
      (memchr_field (by omega)).mpr ⟨_, _, hd3, hnul3, rfl⟩, ?_⟩
    rw [takeInitFields_eq_some rest (by omega) (by omega) (by omega), hfield1, hfield2, hfield3,
      utilsParseU64Range_eq_some]
    have h32 : maxUsernameLen = 32 := rfl
    have h256 : maxFilenameLen = 256 := rfl
    exact ⟨by omega, by omega, hpos3, ⟨hne, hdigit, by rw [hvalue]; exact hwf.size_lt, hvalue.symm⟩,
      rfl, rfl⟩

theorem initFields_eq_some {pl : Bytes} {f : InitFields} :
    initFields pl = some f ↔
      f.Wf ∧ ∃ digits tail, pl = f.sender ++ 0 :: (f.filename ++ 0 :: (digits ++ 0 :: tail)) ∧
        digits ≠ [] ∧ (∀ b ∈ digits, IsDigit b) ∧ decimalValue 0 digits = f.size := by
  have hparse := @fileParseInitPayload_span_eq_some pl [] f
  rwa [fileParseInitPayload_span, Option.some.injEq] at hparse

/-- Three fields and their NULs take at least six bytes, so a well-formed INIT payload is never
    mistaken for a control frame. -/
theorem six_le_of_initFields {pl : Bytes} {f : InitFields} (h : initFields pl = some f) :
    6 ≤ pl.length := by
  obtain ⟨hwf, digits, tail, rfl, hne, -⟩ := initFields_eq_some.mp h
  have hsender := hwf.sender_len
  have hfilename := hwf.filename_len
  have hdigits := List.length_pos_of_ne_nil hne
  simp only [List.length_append, List.length_cons]
  omega

/-! ### The payload that is sent -/

/-- The INIT payload for these fields, as `protocol_build_text3` lays it out. -/
def InitFields.payload (f : InitFields) : Bytes :=
  f.sender ++ [0] ++ f.filename ++ [0] ++ decimal f.size ++ [0]

/-- **Round trip**: what is sent is read back. -/
theorem initFields_payload {f : InitFields} (h : f.Wf) : initFields f.payload = some f := by
  refine initFields_eq_some.mpr ⟨h, decimal f.size, [], ?_, decimal_ne_nil _,
    fun _ hb => mem_decimal hb, decimalValue_decimal f.size⟩
  simp only [InitFields.payload, List.append_assoc, List.cons_append, List.nil_append]

/-- A size has at most 20 digits, so the frame buffer of `file_cmd_sendfile` is large enough. -/
theorem length_payload_le {f : InitFields} (h : f.Wf) : f.payload.length ≤ 309 := by
  have hsender := h.sender_len
  have hfilename := h.filename_len
  have hsize := h.size_lt
  have hdigits : (decimal f.size).length ≤ 20 := length_decimal_le (by decide) (by omega)
  simp only [InitFields.payload, List.length_append, List.length_singleton]
  omega

theorem protocolBuildText3_initFields {f : InitFields} (h : f.Wf) {outCap : Int}
    (hcap : (5 + f.payload.length : Nat) ≤ outCap) :
    protocolBuildText3 msgFileInit f.sender f.filename (decimal f.size) outCap =
      some (frameHeader msgFileInit f.payload.length ++ f.payload) := by
  have hlen := length_payload_le h
  exact buildPayload_eq ⟨msgFileInit, f.payload, by omega⟩ hcap

end TCPClient
