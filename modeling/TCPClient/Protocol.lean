import TCPClient.Utils
import TCPClient.Lib.Feed

namespace TCPClient

open Octets Feed

/-!
# `protocol.h` / `protocol.c` — message types, frame builders, incremental parser

A frame is `magic(2) type(1) length(2) payload`, everything big-endian.  A builder returns the
bytes it wrote (the C return value is their number) or `none` for `-1`; `out_cap` is an `int`.
`protocolParse` is the incremental parser, with `Feed.Outcome` for its three kinds of answer.

`Frame` is the abstract object: a type byte and a payload whose length the 16-bit header field
can hold.  `protocolParse_encode` and `protocolParse_eq_item` say that the parser recognises
exactly the encodings of frames, and `protocolParse_stable` that its verdicts do not depend on
bytes that have not arrived.
-/

/-! ### Message types and error codes -/

@[simp] def msgAuth : UInt8 := 0x01
@[simp] def msgChat : UInt8 := 0x02
@[simp] def msgPriv : UInt8 := 0x03
@[simp] def msgGcreate : UInt8 := 0x04
@[simp] def msgGjoin : UInt8 := 0x05
@[simp] def msgGleave : UInt8 := 0x06
@[simp] def msgGmsg : UInt8 := 0x07
@[simp] def msgUsers : UInt8 := 0x08
@[simp] def msgFileInit : UInt8 := 0x09
@[simp] def msgFileAccept : UInt8 := 0x0A
@[simp] def msgFileReject : UInt8 := 0x0B
@[simp] def msgFileChunk : UInt8 := 0x0C
@[simp] def msgFileComplete : UInt8 := 0x0D
@[simp] def msgFileCancel : UInt8 := 0x0E
@[simp] def msgServerMsg : UInt8 := 0x0F
@[simp] def msgError : UInt8 := 0x10
@[simp] def msgOnlineUsers : UInt8 := 0x11

@[simp] def errNoSuchUser : Nat := 200
@[simp] def errTransferState : Nat := 300

/-! ### Frames -/

/-- A protocol frame: the payload length fits the 16-bit header field. -/
structure Frame where
  type : UInt8
  payload : Bytes
  fits : payload.length < 2 ^ 16

/-- The five header bytes for a payload length (narrowed to 16 bits). -/
def frameHeader (msgType : UInt8) (payloadLen : Nat) : Bytes :=
  utilsWriteU16Be protoMagic ++ msgType :: utilsWriteU16Be payloadLen

@[simp] theorem length_frameHeader (msgType : UInt8) (payloadLen : Nat) :
    (frameHeader msgType payloadLen).length = 5 := rfl

/-- The header field holds the length modulo `2^16`. -/
theorem frameHeader_mod (msgType : UInt8) (payloadLen : Nat) :
    frameHeader msgType (payloadLen % 2 ^ 16) = frameHeader msgType payloadLen := by
  have h0 : UInt8.ofNat (payloadLen % 2 ^ 16) = UInt8.ofNat payloadLen := by
    apply UInt8.toNat_inj.mp
    simp only [UInt8.toNat_ofNat']
    omega
  have h8 : UInt8.ofNat ((payloadLen % 2 ^ 16) / 2 ^ 8) = UInt8.ofNat (payloadLen / 2 ^ 8) := by
    apply UInt8.toNat_inj.mp
    simp only [UInt8.toNat_ofNat']
    omega
  simp only [frameHeader, utilsWriteU16Be, beOctets, Nat.mul_zero, Nat.mul_one,
    Nat.shiftRight_eq_div_pow, Nat.pow_zero, Nat.div_one, h0, h8]

/-- The bytes of a frame on the wire. -/
def Frame.encode (f : Frame) : Bytes := frameHeader f.type f.payload.length ++ f.payload

@[simp] theorem Frame.length_encode (f : Frame) : f.encode.length = 5 + f.payload.length := by
  simp [Frame.encode]

/-! ### Builders -/

/-- `protocol_build_frame`: `payload_len` is a `uint16_t`. -/
def protocolBuildFrame (msgType : UInt8) (payload : Bytes) (payloadLen : Nat)
    (outCap : Int) : Option Bytes :=
  if (protoHeaderSize + payloadLen : Nat) > outCap then none
  else some (frameHeader msgType payloadLen ++ payload.take payloadLen)

/-- `protocol_build_text1`: payload `text\0`, its length narrowed to `uint16_t` before the
    frame is built. -/
def protocolBuildText1 (msgType : UInt8) (text : Bytes) (outCap : Int) : Option Bytes :=
  if text.length > protoMaxPayload then none
  else protocolBuildFrame msgType (text ++ [0]) ((text.length + 1) % 2 ^ 16) outCap

/-- The body the hand-written builders share: the cap, the room, the header with the narrowed
    length, the whole payload. -/
def buildPayload (msgType : UInt8) (payload : Bytes) (outCap : Int) : Option Bytes :=
  if payload.length > protoMaxPayload then none
  else if (payload.length + protoHeaderSize : Nat) > outCap then none
  else some (frameHeader msgType (payload.length % 2 ^ 16) ++ payload)

/-- `protocol_build_text2`: payload `part1\0part2\0`. -/
def protocolBuildText2 (msgType : UInt8) (part1 part2 : Bytes) (outCap : Int) : Option Bytes :=
  buildPayload msgType (part1 ++ [0] ++ part2 ++ [0]) outCap

/-- `protocol_build_text3`: payload `part1\0part2\0part3\0`. -/
def protocolBuildText3 (msgType : UInt8) (part1 part2 part3 : Bytes) (outCap : Int) :
    Option Bytes :=
  buildPayload msgType (part1 ++ [0] ++ part2 ++ [0] ++ part3 ++ [0]) outCap

/-- `protocol_build_tid`: payload `tid(4)`. -/
def protocolBuildTid (msgType : UInt8) (tid : Nat) (outCap : Int) : Option Bytes :=
  protocolBuildFrame msgType (utilsWriteU32Be tid) 4 outCap

/-- `protocol_build_chunk`: payload `tid(4) offset(8) data`. -/
def protocolBuildChunk (tid offset : Nat) (data : Bytes) (outCap : Int) : Option Bytes :=
  buildPayload msgFileChunk (utilsWriteU32Be tid ++ utilsWriteU64Be offset ++ data) outCap

/-- `protocol_build_error`: payload `code(2)\0message\0`. -/
def protocolBuildError (code : Nat) (msg : Bytes) (outCap : Int) : Option Bytes :=
  buildPayload msgError (utilsWriteU16Be code ++ [0] ++ msg ++ [0]) outCap

/-- The first `n` bytes behind a pointer. -/
def bytesFrom (data : Nat → UInt8) (n : Nat) : Bytes := (List.range n).map data

@[simp] theorem length_bytesFrom (data : Nat → UInt8) (n : Nat) :
    (bytesFrom data n).length = n := by
  rw [bytesFrom, List.length_map, List.length_range]

/-- The cast `(uint16_t)x` of an `int`. -/
def toU16 (x : Int) : Nat := (x % 2 ^ 16).toNat

theorem toU16_lt (x : Int) : toU16 x < 2 ^ 16 := by
  rw [toU16]
  omega

/-- `protocol_build_raw`: the payload as it is.  `data_len` is an `int`, of which only a value
    above 1 MiB is refused; it is narrowed to `uint16_t` before the frame is built.  `data` is the
    memory from the pointer on. -/
def protocolBuildRaw (msgType : UInt8) (data : Nat → UInt8) (dataLen : Int) (outCap : Int) :
    Option Bytes :=
  if dataLen > protoMaxPayload then none
  else protocolBuildFrame msgType (bytesFrom data (toU16 dataLen)) (toU16 dataLen) outCap

/-- With room for it, a payload that fits the header field is framed as it should be. -/
theorem protocolBuildFrame_eq (f : Frame) {outCap : Int}
    (hcap : (5 + f.payload.length : Nat) ≤ outCap) :
    protocolBuildFrame f.type f.payload f.payload.length outCap = some f.encode := by
  rw [protocolBuildFrame, if_neg (by simp only [protoHeaderSize]; omega), List.take_length]
  rfl

theorem buildPayload_eq (f : Frame) {outCap : Int}
    (hcap : (5 + f.payload.length : Nat) ≤ outCap) :
    buildPayload f.type f.payload outCap = some f.encode := by
  have hf := f.fits
  rw [buildPayload, if_neg (by simp only [protoMaxPayload]; omega),
    if_neg (by simp only [protoHeaderSize]; omega), Nat.mod_eq_of_lt hf]
  rfl

/-- The 4-byte control frames of the file module. -/
def tidFrame (msgType : UInt8) (tid : Nat) : Frame :=
  ⟨msgType, utilsWriteU32Be tid, by simp⟩

/-- A control frame always fits its stack buffer. -/
theorem protocolBuildTid_eq (msgType : UInt8) (tid : Nat) :
    protocolBuildTid msgType tid (protoHeaderSize + 4) = some (tidFrame msgType tid).encode :=
  protocolBuildFrame_eq (tidFrame msgType tid) (by simp [tidFrame])

/-! ### The incremental parser -/

/-- `protocol_parse`: too few bytes for a header or for the announced payload ask for more; a
    wrong magic is final (the scan for a later magic ends in `-1` either way). -/
def protocolParse (data : Bytes) : Outcome (UInt8 × Bytes) :=
  if data.length < protoHeaderSize then .more
  else if utilsReadU16Be data ≠ protoMagic then .bad
  else
    let payloadLen := utilsReadU16Be (data.drop 3)
    let totalFrame := protoHeaderSize + payloadLen
    if data.length < totalFrame then .more
    else .item totalFrame (data.getD 2 0, (data.drop protoHeaderSize).take payloadLen)

/-- The three fields of a header as the parser reads them back. -/
theorem read_frameHeader (msgType : UInt8) (payloadLen : Nat) (rest : Bytes) :
    utilsReadU16Be (frameHeader msgType payloadLen ++ rest) = protoMagic ∧
      (frameHeader msgType payloadLen ++ rest).getD 2 0 = msgType ∧
      utilsReadU16Be ((frameHeader msgType payloadLen ++ rest).drop 3) = payloadLen % 2 ^ 16 := by
  refine ⟨?_, rfl, ?_⟩
  · rw [frameHeader, List.append_assoc, utilsReadU16Be_write]; rfl
  · show utilsReadU16Be (utilsWriteU16Be payloadLen ++ rest) = _
    exact utilsReadU16Be_write payloadLen rest

/-- Behind a header the parser waits for, and then cuts off, as many bytes as the header says. -/
theorem protocolParse_header (msgType : UInt8) (payloadLen : Nat) (rest : Bytes) :
    protocolParse (frameHeader msgType payloadLen ++ rest) =
      if rest.length < payloadLen % 2 ^ 16 then .more
      else .item (5 + payloadLen % 2 ^ 16) (msgType, rest.take (payloadLen % 2 ^ 16)) := by
  obtain ⟨hmagic, htype, hlen⟩ := read_frameHeader msgType payloadLen rest
  have hl : (frameHeader msgType payloadLen ++ rest).length = 5 + rest.length := by simp
  have hd : (frameHeader msgType payloadLen ++ rest).drop 5 = rest := rfl
  simp only [protocolParse, protoHeaderSize, hmagic, htype, hlen, hl, hd, ne_eq,
    not_true_eq_false, if_false, Nat.add_lt_add_iff_left]
  rw [if_neg (by omega)]

/-- **A whole frame is consumed whole**, whatever follows it. -/
theorem protocolParse_encode (f : Frame) (rest : Bytes) :
    protocolParse (f.encode ++ rest) = .item (5 + f.payload.length) (f.type, f.payload) := by
  rw [Frame.encode, List.append_assoc, protocolParse_header, Nat.mod_eq_of_lt f.fits,
    if_neg (by simp), List.take_left]

/-- Fewer than five bytes ask for more. -/
theorem protocolParse_short {data : Bytes} (h : data.length < 5) : protocolParse data = .more :=
  if_pos h

/-- A complete header with another magic is final. -/
theorem protocolParse_bad {data : Bytes} (h5 : ¬ data.length < 5)
    (hmagic : utilsReadU16Be data ≠ protoMagic) : protocolParse data = .bad := by
  rw [protocolParse, if_neg (by simpa only [protoHeaderSize] using h5), if_pos hmagic]

/-- **Every strict prefix of a frame asks for more.** -/
theorem protocolParse_take_encode (f : Frame) {k : Nat} (hk : k < f.encode.length) :
    protocolParse (f.encode.take k) = .more := by
  rw [Frame.length_encode] at hk
  by_cases h5 : k < 5
  · exact protocolParse_short (by simp; omega)
  · have htake : f.encode.take k
        = frameHeader f.type f.payload.length ++ f.payload.take (k - 5) := by
      rw [Frame.encode, List.take_append, length_frameHeader,
        List.take_of_length_le (by rw [length_frameHeader]; omega)]
    rw [htake, protocolParse_header, Nat.mod_eq_of_lt f.fits, if_pos]
    rw [List.length_take]; omega

/-- A buffer that starts with the magic starts with the header of the frame it announces. -/
theorem eq_frameHeader_append {data : Bytes} (h5 : ¬ data.length < 5)
    (hmagic : utilsReadU16Be data = protoMagic) :
    data = frameHeader (data.getD 2 0) (utilsReadU16Be (data.drop 3)) ++ data.drop 5 := by
  match data, h5 with
  | a :: b :: c :: d :: e :: rest, _ =>
    have hval : a.toNat * 256 + b.toNat = 0xCAFE := by
      simpa [utilsReadU16Be, beValue_cons, beValue] using hmagic
    have ha := a.toNat_lt
    have hb := b.toNat_lt
    have hd := d.toNat_lt
    have he := e.toNat_lt
    have ha' : a = 0xCA := UInt8.toNat_inj.mp (by show a.toNat = 0xCA; omega)
    have hb' : b = 0xFE := UInt8.toNat_inj.mp (by show b.toNat = 0xFE; omega)
    have hlen : utilsReadU16Be (d :: e :: rest) = d.toNat * 256 + e.toNat := by
      simp [utilsReadU16Be, beValue_cons, beValue]
    have hd' : UInt8.ofNat ((d.toNat * 256 + e.toNat) >>> 8) = d := by
      apply UInt8.toNat_inj.mp
      simp only [UInt8.toNat_ofNat', Nat.shiftRight_eq_div_pow]
      omega
    have he' : UInt8.ofNat (d.toNat * 256 + e.toNat) = e := by
      apply UInt8.toNat_inj.mp
      simp only [UInt8.toNat_ofNat']
      omega
    -- the first two bytes are the magic, the last two give their own value
    show _ = frameHeader c (utilsReadU16Be (d :: e :: rest)) ++ rest
    rw [hlen]
    simp [frameHeader, utilsWriteU16Be, beOctets, hd', he', ha', hb']
  | [], h => exact absurd (by simp) h
  | [_], h => exact absurd (by simp) h
  | [_, _], h => exact absurd (by simp) h
  | [_, _, _], h => exact absurd (by simp) h
  | [_, _, _, _], h => exact absurd (by simp) h

theorem utilsReadU16Be_lt (data : Bytes) : utilsReadU16Be data < 2 ^ 16 := by
  refine lt_of_lt_of_le (beValue_lt _) (Nat.pow_le_pow_right (by decide) ?_)
  have : (data.take 2).length ≤ 2 := by simp
  omega

/-- **What is accepted is well formed.** An item is parsed off a buffer exactly when the buffer
    starts with the encoding of that frame. -/
theorem protocolParse_eq_item (data : Bytes) (n : Nat) (ty : UInt8) (payload : Bytes) :
    protocolParse data = .item n (ty, payload) ↔
      ∃ f : Frame, f.type = ty ∧ f.payload = payload ∧ n = 5 + payload.length ∧
        f.encode <+: data := by
  constructor
  · intro h
    by_cases h5 : data.length < 5
    · rw [protocolParse_short h5] at h; exact absurd h (by simp)
    by_cases hm : utilsReadU16Be data = protoMagic
    · have hsplit := eq_frameHeader_append h5 hm
      have hlt := utilsReadU16Be_lt (data.drop 3)
      rw [hsplit, protocolParse_header, Nat.mod_eq_of_lt hlt] at h
      split at h
      · exact absurd h (by simp)
      · rename_i hlen
        simp only [Outcome.item.injEq, Prod.mk.injEq] at h
        obtain ⟨hn, hty, hpl⟩ := h
        have hpay : payload.length = utilsReadU16Be (data.drop 3) := by
          rw [← hpl, List.length_take]; omega
        refine ⟨⟨ty, payload, by omega⟩, rfl, rfl, by omega, ?_⟩
        refine ⟨(data.drop 5).drop payload.length, ?_⟩
        show frameHeader ty payload.length ++ payload ++ _ = data
        calc frameHeader ty payload.length ++ payload ++ (data.drop 5).drop payload.length
            = frameHeader ty payload.length ++
                ((data.drop 5).take payload.length ++ (data.drop 5).drop payload.length) := by
              rw [List.append_assoc, hpay, hpl]
          _ = data := by rw [List.take_append_drop, hpay, ← hty]; exact hsplit.symm
    · rw [protocolParse_bad h5 hm] at h; exact absurd h (by simp)
  · rintro ⟨f, rfl, rfl, rfl, rest, rfl⟩
    exact protocolParse_encode f rest

/-- **Prefix stability.** A verdict other than "more" uses part of the buffer only and is not
    changed by bytes that arrive later. -/
theorem protocolParse_stable : Stable protocolParse where
  nil := rfl
  item_le := by
    intro xs n b h
    obtain ⟨ty, payload⟩ := b
    obtain ⟨f, -, rfl, rfl, hpre⟩ := (protocolParse_eq_item _ _ _ _).mp h
    have := hpre.length_le
    rw [Frame.length_encode] at this
    omega
  append := by
    intro xs ys hne
    by_cases h5 : xs.length < 5
    · exact absurd (protocolParse_short h5) hne
    have h5' : ¬ (xs ++ ys).length < 5 := by rw [List.length_append]; omega
    have hread : utilsReadU16Be (xs ++ ys) = utilsReadU16Be xs := by
      rw [utilsReadU16Be, utilsReadU16Be, List.take_append_of_le_length (by omega)]
    by_cases hm : utilsReadU16Be xs = protoMagic
    · cases hv : protocolParse xs with
      | more => exact absurd hv hne
      | bad =>
        have hsplit := eq_frameHeader_append h5 hm
        rw [hsplit, protocolParse_header] at hv
        split at hv <;> exact absurd hv (by simp)
      | item n b =>
        obtain ⟨ty, payload⟩ := b
        obtain ⟨f, rfl, rfl, rfl, rest, rfl⟩ := (protocolParse_eq_item _ _ _ _).mp hv
        rw [List.append_assoc, protocolParse_encode]
    · rw [protocolParse_bad h5 hm, protocolParse_bad h5' (by rw [hread]; exact hm)]

/-- What still asks for more is shorter than the largest frame. -/
theorem length_lt_of_more {data : Bytes} (h : protocolParse data = .more) :
    data.length < 5 + 65535 := by
  by_contra hlen
  have h5 : ¬ data.length < 5 := by omega
  by_cases hm : utilsReadU16Be data = protoMagic
  · have hlt := utilsReadU16Be_lt (data.drop 3)
    rw [eq_frameHeader_append h5 hm, protocolParse_header, Nat.mod_eq_of_lt hlt,
      if_neg (by rw [List.length_drop]; omega)] at h
    exact absurd h (by simp)
  · rw [protocolParse_bad h5 hm] at h
    exact absurd h (by simp)

end TCPClient
