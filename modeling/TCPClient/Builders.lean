import TCPClient.Protocol

namespace TCPClient

open Octets Feed

/-!
# Frame builders against the parser

Each builder computes its payload length in a wide type, checks it against the 1 MiB cap and
against `out_cap`, and then narrows it into the 16-bit header field.  `BuildCall` collects the
eight builders with the arguments their signatures admit, `BuildCall.run_eq` brings them to one
normal form, and `build_agrees_iff` says exactly when a builder and the parser agree: when there
is a payload that fits the header field, or when the builder refuses.
-/

/-- A call of a builder.  `payload_len` and `data_len` are `uint16_t` in `frame` and `chunk`, and
    `data_len` is an `int` in `raw`, whose `data` is the memory from the pointer on. -/
inductive BuildCall where
  | frame (msgType : UInt8) (payload : Bytes) (fits : payload.length < 2 ^ 16)
  | text1 (msgType : UInt8) (text : Bytes)
  | text2 (msgType : UInt8) (part1 part2 : Bytes)
  | text3 (msgType : UInt8) (part1 part2 part3 : Bytes)
  | tid (msgType : UInt8) (t : UInt32)
  | chunk (t : UInt32) (offset : UInt64) (data : Bytes) (fits : data.length < 2 ^ 16)
  | error (code : UInt16) (msg : Bytes)
  | raw (msgType : UInt8) (data : Nat → UInt8) (dataLen : Int)

namespace BuildCall

/-- Run the call with an output buffer of `outCap` bytes. -/
def run (outCap : Int) : BuildCall → Option Bytes
  | frame msgType payload _ => protocolBuildFrame msgType payload payload.length outCap
  | text1 msgType text => protocolBuildText1 msgType text outCap
  | text2 msgType part1 part2 => protocolBuildText2 msgType part1 part2 outCap
  | text3 msgType part1 part2 part3 => protocolBuildText3 msgType part1 part2 part3 outCap
  | tid msgType t => protocolBuildTid msgType t.toNat outCap
  | chunk t offset data _ => protocolBuildChunk t.toNat offset.toNat data outCap
  | error code msg => protocolBuildError code.toNat msg outCap
  | raw msgType data dataLen => protocolBuildRaw msgType data dataLen outCap

/-- The type byte the call asks for. -/
def msgType : BuildCall → UInt8
  | frame msgType _ _ => msgType
  | text1 msgType _ => msgType
  | text2 msgType _ _ => msgType
  | text3 msgType _ _ _ => msgType
  | tid msgType _ => msgType
  | chunk _ _ _ _ => msgFileChunk
  | error _ _ => msgError
  | raw msgType _ _ => msgType

/-- The payload the call is meant to frame, as the comments of `protocol.c` lay it out.  There is
    none of a negative length: such a call can only be refused. -/
def intended : BuildCall → Option Bytes
  | frame _ payload _ => some payload
  | text1 _ text => some (text ++ [0])
  | text2 _ part1 part2 => some (part1 ++ [0] ++ part2 ++ [0])
  | text3 _ part1 part2 part3 => some (part1 ++ [0] ++ part2 ++ [0] ++ part3 ++ [0])
  | tid _ t => some (utilsWriteU32Be t.toNat)
  | chunk t offset data _ =>
    some (utilsWriteU32Be t.toNat ++ utilsWriteU64Be offset.toNat ++ data)
  | error code msg => some (utilsWriteU16Be code.toNat ++ [0] ++ msg ++ [0])
  | raw _ data dataLen => if dataLen < 0 then none else some (bytesFrom data dataLen.toNat)

/-- What is written behind the header: `text1` and `raw` have narrowed the length by then. -/
def framed : BuildCall → Bytes
  | text1 _ text => (text ++ [0]).take ((text.length + 1) % 2 ^ 16)
  | raw _ data dataLen => bytesFrom data (toU16 dataLen)
  | c => c.intended.getD []

/-- The length compared with the 1 MiB cap: `text1` does not count its NUL. -/
def cappedLen : BuildCall → Int
  | text1 _ text => text.length
  | raw _ _ dataLen => dataLen
  | c => c.framed.length

/-- The two reasons for `-1`. -/
def Refused (c : BuildCall) (outCap : Int) : Prop :=
  protoMaxPayload < c.cappedLen ∨ outCap < (5 + c.framed.length : Nat)

instance (c : BuildCall) (outCap : Int) : Decidable (c.Refused outCap) :=
  inferInstanceAs (Decidable (_ ∨ _))

/-- Builder and parser agree: either the builder refuses, or what it wrote fits the buffer, is
    parsed as one frame of the given type with the intended payload whatever follows it, and
    every strict prefix of it asks for more. -/
def Agrees (c : BuildCall) (outCap : Int) : Prop :=
  c.run outCap = none ∨
    ∃ out payload, c.run outCap = some out ∧ c.intended = some payload ∧
      (out.length : Int) ≤ outCap ∧
      (∀ rest, protocolParse (out ++ rest) = .item out.length (c.msgType, payload)) ∧
      ∀ k < out.length, protocolParse (out.take k) = .more

end BuildCall

/-- The hand-written builders, with their two checks as one. -/
private theorem buildPayload_run (msgType : UInt8) (payload : Bytes) (outCap : Int) :
    buildPayload msgType payload outCap =
      if (protoMaxPayload : Int) < payload.length ∨ outCap < (5 + payload.length : Nat) then none
      else some (frameHeader msgType payload.length ++ payload) := by
  have hcomm : payload.length + protoHeaderSize = 5 + payload.length := Nat.add_comm _ _
  rw [buildPayload, frameHeader_mod, hcomm]
  by_cases hcap : protoMaxPayload < payload.length
  · rw [if_pos hcap, if_pos (Or.inl (by exact_mod_cast hcap))]
  · rw [if_neg hcap]
    have hcap' : ¬ (protoMaxPayload : Int) < payload.length := by exact_mod_cast hcap
    simp only [hcap', false_or, gt_iff_lt]

/-- The 1 MiB cap never stops a payload that fits the header field. -/
private theorem not_capped {L : Nat} (h : L < 2 ^ 16) : ¬ (protoMaxPayload : Int) < L := by
  simp only [protoMaxPayload]
  omega

/-- `protocol_build_frame` on a payload of the length it is given. -/
private theorem buildFrame_run (msgType : UInt8) {payload : Bytes} {n : Nat} (outCap : Int)
    (h : payload.length = n) :
    protocolBuildFrame msgType payload n outCap =
      if outCap < (5 + payload.length : Nat) then none
      else some (frameHeader msgType payload.length ++ payload) := by
  subst h
  rw [protocolBuildFrame, List.take_length]
  rfl

namespace BuildCall

theorem length_framed_text1 (msgType : UInt8) (text : Bytes) :
    (text1 msgType text).framed.length = (text.length + 1) % 2 ^ 16 := by
  rw [framed, List.length_take, List.length_append, List.length_singleton]
  exact min_eq_left (Nat.mod_le _ _)

/-- **One normal form for the eight builders.** Each refuses for its two reasons, and otherwise
    writes the header with the length it frames, narrowed, and then those bytes. -/
theorem run_eq (c : BuildCall) (outCap : Int) :
    c.run outCap =
      if c.Refused outCap then none
      else some (frameHeader c.msgType c.framed.length ++ c.framed) := by
  cases c with
  | frame msgType payload fits =>
    have href : (frame msgType payload fits).Refused outCap ↔
        outCap < (5 + payload.length : Nat) := or_iff_right (not_capped fits)
    simp only [href]
    exact buildFrame_run msgType outCap rfl
  | text1 msgType text =>
    by_cases hcap : (protoMaxPayload : Int) < text.length
    · have href : (text1 msgType text).Refused outCap := Or.inl hcap
      rw [run, protocolBuildText1, if_pos (by exact_mod_cast hcap), if_pos href]
    · have href : (text1 msgType text).Refused outCap ↔
          outCap < (5 + (text1 msgType text).framed.length : Nat) := or_iff_right hcap
      -- the builder copies what the narrowed length leaves of the text and its NUL
      have hcopy : (text ++ [0]).take ((text.length + 1) % 2 ^ 16)
          = (text1 msgType text).framed := rfl
      rw [run, protocolBuildText1, if_neg (by exact_mod_cast hcap), protocolBuildFrame, hcopy,
        ← length_framed_text1 msgType text]
      simp only [href]
      rfl
  | text2 msgType part1 part2 => exact buildPayload_run _ _ _
  | text3 msgType part1 part2 part3 => exact buildPayload_run _ _ _
  | tid msgType t =>
    have h4 : (utilsWriteU32Be t.toNat).length = 4 := length_utilsWriteU32Be _
    have href : (tid msgType t).Refused outCap ↔
        outCap < (5 + (utilsWriteU32Be t.toNat).length : Nat) :=
      or_iff_right (not_capped (L := (utilsWriteU32Be t.toNat).length) (by rw [h4]; decide))
    simp only [href]
    exact buildFrame_run msgType outCap h4
  | chunk t offset data fits => exact buildPayload_run _ _ _
  | error code msg => exact buildPayload_run _ _ _
  | raw msgType data dataLen =>
    by_cases hcap : (protoMaxPayload : Int) < dataLen
    · have href : (raw msgType data dataLen).Refused outCap := Or.inl hcap
      rw [run, protocolBuildRaw, if_pos hcap, if_pos href]
    · have href : (raw msgType data dataLen).Refused outCap ↔
          outCap < (5 + (bytesFrom data (toU16 dataLen)).length : Nat) := or_iff_right hcap
      rw [run, protocolBuildRaw, if_neg hcap, buildFrame_run msgType outCap (by simp)]
      simp only [href]
      rfl

/-- Narrowing does not touch a length that fits. -/
theorem framed_of_fits {c : BuildCall} {payload : Bytes} (hmeant : c.intended = some payload)
    (hfits : payload.length < 2 ^ 16) : c.framed = payload := by
  cases c with
  | text1 msgType text =>
    obtain rfl := Option.some.inj hmeant
    have hlen : (text ++ [0]).length = text.length + 1 := by simp
    rw [hlen] at hfits
    rw [framed, Nat.mod_eq_of_lt hfits, ← hlen, List.take_length]
  | raw msgType data dataLen =>
    rw [intended] at hmeant
    split_ifs at hmeant with hneg
    obtain rfl := Option.some.inj hmeant
    rw [length_bytesFrom] at hfits
    have hcast : toU16 dataLen = dataLen.toNat := by
      rw [toU16]
      omega
    rw [framed, hcast]
  | _ =>
    obtain rfl := Option.some.inj hmeant
    rfl

/-- A payload that fits the header field is framed so that the parser gives it back. -/
theorem agrees_of_fits {c : BuildCall} {payload : Bytes} (hmeant : c.intended = some payload)
    (hfits : payload.length < 2 ^ 16) (outCap : Int) : c.Agrees outCap := by
  by_cases href : c.Refused outCap
  · left
    rw [run_eq, if_pos href]
  · right
    have hroom : ((5 + c.framed.length : Nat) : Int) ≤ outCap := by
      by_contra hlt
      exact href (Or.inr (by omega))
    rw [framed_of_fits hmeant hfits] at hroom
    -- what is written is the encoding of a frame
    let f : Frame := ⟨c.msgType, payload, hfits⟩
    have hrun : c.run outCap = some f.encode := by
      rw [run_eq, if_neg href, framed_of_fits hmeant hfits]
      rfl
    refine ⟨f.encode, payload, hrun, hmeant, ?_, ?_, ?_⟩
    · rw [Frame.length_encode]; exact hroom
    · intro rest
      rw [Frame.length_encode]
      exact protocolParse_encode f rest
    · intro k hk
      exact protocolParse_take_encode f hk

/-- A longer payload is not given back, however much of it was written: the parser cuts it off
    at the narrowed length. -/
theorem not_agrees_of_long {c : BuildCall} {outCap : Int}
    (hlong : ∀ payload, c.intended = some payload → ¬ payload.length < 2 ^ 16)
    (href : ¬ c.Refused outCap) : ¬ c.Agrees outCap := by
  rintro (hnone | ⟨out, payload, hout, hmeant, _, hparse, _⟩)
  · rw [run_eq, if_neg href] at hnone
    exact absurd hnone (by simp)
  · rw [run_eq, if_neg href, Option.some.injEq] at hout
    have h := hparse []
    rw [← hout, List.append_nil, protocolParse_header] at h
    -- the parser delivers fewer than 65536 bytes, the payload has more
    have hmod : c.framed.length % 2 ^ 16 < 2 ^ 16 := Nat.mod_lt _ (by decide)
    have hlen16 := hlong payload hmeant
    split at h
    · exact absurd h (by simp)
    · simp only [Outcome.item.injEq, Prod.mk.injEq] at h
      have hlen := congrArg List.length h.2.2
      rw [List.length_take] at hlen
      omega

end BuildCall

/-- **When builders and parser agree.** They do exactly when there is an intended payload that
    fits the 16-bit header field, or the builder refuses the call. -/
theorem build_agrees_iff (c : BuildCall) (outCap : Int) :
    c.Agrees outCap ↔
      (∃ payload, c.intended = some payload ∧ payload.length < 2 ^ 16) ∨ c.Refused outCap := by
  constructor
  · intro h
    by_contra hnot
    rw [not_or] at hnot
    refine BuildCall.not_agrees_of_long (fun payload hmeant hfits => ?_) hnot.2 h
    exact hnot.1 ⟨payload, hmeant, hfits⟩
  · rintro (⟨payload, hmeant, hfits⟩ | h)
    · exact BuildCall.agrees_of_fits hmeant hfits outCap
    · left
      rw [BuildCall.run_eq, if_pos h]

/-- Every text of 65535 bytes is framed with length field 0, however much room there is. -/
theorem BuildCall.text1_not_agrees (msgType : UInt8) {text : Bytes} (h : text.length = 65535)
    {outCap : Int} (hcap : 5 ≤ outCap) : ¬ (text1 msgType text).Agrees outCap := by
  apply BuildCall.not_agrees_of_long
  · intro payload hmeant
    obtain rfl := Option.some.inj hmeant
    rw [List.length_append, h]
    decide
  · rintro (hc | hc)
    · rw [cappedLen, h] at hc
      exact absurd hc (by decide)
    · rw [length_framed_text1, h] at hc
      omega

/-- A negative length is no reason for `raw` to refuse: it frames what is left of it. -/
theorem BuildCall.raw_not_agrees (msgType : UInt8) (data : Nat → UInt8) {dataLen outCap : Int}
    (hneg : dataLen < 0) (hcap : 65540 ≤ outCap) : ¬ (raw msgType data dataLen).Agrees outCap := by
  apply BuildCall.not_agrees_of_long
  · intro payload hmeant
    rw [intended, if_pos hneg] at hmeant
    exact absurd hmeant (by simp)
  · have hframed := toU16_lt dataLen
    rintro (hc | hc)
    · rw [cappedLen, protoMaxPayload] at hc
      omega
    · rw [framed, length_bytesFrom] at hc
      omega

/-- A chat line of 65535 letters, with room for all of it. -/
theorem text1_narrowed_disagrees :
    ¬ (BuildCall.text1 msgChat (List.replicate 65535 65)).Agrees 65541 :=
  BuildCall.text1_not_agrees msgChat List.length_replicate (by decide)

end TCPClient
