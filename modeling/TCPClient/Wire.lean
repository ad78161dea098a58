import TCPClient.Lib.Framing
import TCPClient.Outside

namespace TCPClient

open Octets Feed Trace

/-!
# The stream of frames

`stream_codec` reads a byte stream as a sequence of frames: `protocol_parse`, applied again and
again, gives back exactly the frames that were written, and what it leaves is the front of a frame
or the start of a stream with another magic.  `console_wire` is what this means for the client:
what it sends is such a stream, up to the frame that could not be sent.
-/

/-! ### Streams -/

/-- The frames that the parser delivers, as it delivers them. -/
def Frame.parsed (f : Frame) : UInt8 × Bytes := (f.type, f.payload)

theorem codec_protocolParse :
    Codec protocolParse (fun f => frameBytes f.1 f.2) (fun f => f.2.length < 2 ^ 16) where
  item {f} hf rest := by
    have hlen : (frameBytes f.1 f.2).length = 5 + f.2.length := Frame.length_encode ⟨f.1, f.2, hf⟩
    rw [hlen]
    exact protocolParse_encode ⟨f.1, f.2, hf⟩ rest
  sound {xs n f} h := by
    obtain ⟨type, payload⟩ := f
    obtain ⟨frame, rfl, rfl, rfl, hprefix⟩ := (protocolParse_eq_item xs n type payload).mp h
    exact ⟨frame.fits, frame.length_encode.symm, hprefix⟩

/-- A strict front of a frame, or fewer bytes than a header has. -/
def Unfinished (left : Bytes) : Prop :=
  left.length < 5 ∨ ∃ frame : Frame, ∃ k < frame.encode.length, left = frame.encode.take k

/-- **What the parser waits for**: the rest of a frame. -/
theorem protocolParse_more_iff (left : Bytes) : protocolParse left = .more ↔ Unfinished left := by
  constructor
  · intro hmore
    by_cases h5 : left.length < 5
    · exact Or.inl h5
    by_cases hmagic : utilsReadU16Be left = protoMagic
    swap
    · rw [protocolParse_bad h5 hmagic] at hmore
      exact absurd hmore (by simp)
    -- the payload bytes that are missing are filled up
    have hsplit := eq_frameHeader_append h5 hmagic
    generalize left.getD 2 0 = type at hsplit
    have hlt := utilsReadU16Be_lt (left.drop 3)
    generalize utilsReadU16Be (left.drop 3) = len at hsplit hlt
    generalize left.drop 5 = part at hsplit
    rw [hsplit, protocolParse_header, Nat.mod_eq_of_lt hlt] at hmore
    have hpart : part.length < len := by
      by_contra hlong
      rw [if_neg hlong] at hmore
      exact absurd hmore (by simp)
    obtain ⟨payload, hpayload, hlen⟩ :
        ∃ payload : Bytes, part <+: payload ∧ payload.length = len := by
      refine ⟨part ++ List.replicate (len - part.length) 0, List.prefix_append _ _, ?_⟩
      rw [List.length_append, List.length_replicate]
      omega
    subst hlen
    refine Or.inr ⟨⟨type, payload, hlt⟩, left.length, ?_, List.prefix_iff_eq_take.mp ?_⟩
    · have hfull : (⟨type, payload, hlt⟩ : Frame).encode.length = 5 + payload.length :=
        Frame.length_encode _
      rw [hfull, hsplit, List.length_append, length_frameHeader]
      omega
    · rw [hsplit, Frame.encode]
      exact (List.prefix_append_right_inj _).mpr hpayload
  · rintro (h5 | ⟨frame, k, hk, rfl⟩)
    · exact protocolParse_short h5
    · exact protocolParse_take_encode frame hk

theorem protocolParse_bad_iff (left : Bytes) :
    protocolParse left = .bad ↔ 5 ≤ left.length ∧ utilsReadU16Be left ≠ protoMagic := by
  constructor
  · intro hbad
    have h5 : ¬ left.length < 5 := fun h => by
      rw [protocolParse_short h] at hbad
      exact absurd hbad (by simp)
    refine ⟨by omega, fun hmagic => ?_⟩
    rw [eq_frameHeader_append h5 hmagic, protocolParse_header] at hbad
    split_ifs at hbad
  · rintro ⟨h5, hmagic⟩
    exact protocolParse_bad (by omega) hmagic

/-- **The stream codec.** Applied again and again, `protocol_parse` delivers some frames, leaves
    some bytes and goes on waiting or fails, exactly when the stream is these frames, each with its
    length in its header, in front of these bytes, and the bytes are the front of a frame or carry
    another magic. -/
theorem stream_codec (stream : Bytes) (frames : List (UInt8 × Bytes)) (left : Bytes) (bad : Bool) :
    whole protocolParse stream = ⟨frames, left, bad⟩ ↔
      (∀ f ∈ frames, f.2.length < 2 ^ 16) ∧
        stream = frames.flatMap (fun f => frameBytes f.1 f.2) ++ left ∧
        (bad = false → Unfinished left) ∧
        (bad = true → 5 ≤ left.length ∧ utilsReadU16Be left ≠ protoMagic) := by
  rw [codec_protocolParse.whole_iff protocolParse_stable, ← protocolParse_more_iff,
    ← protocolParse_bad_iff]
  cases bad <;> simp [Outcome.stopped]

/-! ### What the client sends -/

theorem frames_of_client {tried : List (Bytes × Bool)} (h : ∀ x ∈ tried, IsClientFrame x.1) :
    ∃ frames : List (Frame × Bool), tried = frames.map (fun f => (f.1.encode, f.2)) ∧
      ∀ f ∈ frames, f.1.type ∈ clientTypes := by
  induction tried with
  | nil => exact ⟨[], rfl, by simp⟩
  | cons x tried ih =>
    obtain ⟨frame, htype, hbytes⟩ := h x List.mem_cons_self
    obtain ⟨frames, rfl, hframes⟩ := ih fun y hy => h y (List.mem_cons_of_mem x hy)
    refine ⟨(frame, x.2) :: frames, by rw [List.map_cons, ← hbytes], fun f hf => ?_⟩
    rcases List.mem_cons.mp hf with rfl | hf
    · exact htype
    · exact hframes f hf

/-- The frames that went out whole and the front of the next one, as a peer reads them. -/
theorem whole_sent (sent : List Frame) {part : Bytes} (hpart : protocolParse part = .more) :
    whole protocolParse (sent.flatMap Frame.encode ++ part) =
      ⟨sent.map Frame.parsed, part, false⟩ := by
  have hflat : sent.flatMap Frame.encode =
      (sent.map Frame.parsed).flatMap fun f => frameBytes f.1 f.2 := by
    rw [List.flatMap_map]
    rfl
  rw [hflat]
  refine codec_protocolParse.whole_flatMap protocolParse_stable (fun f hf => ?_) hpart
  obtain ⟨frame, -, rfl⟩ := List.mem_map.mp hf
  exact frame.fits

/-- **The wire of a session.** Whatever the server sends, the user types and the outside answers, as
    long as no frame is read past the bytes that were received: everything handed to
    `conn_send_all` is a whole frame of a type that clients send, and as long as the frames go out
    a peer reads back exactly these, and waits at the front of the next. -/
theorem console_wire {env : Surroundings} {events : List ConsoleEvent} {w : World}
    (hw : w ∈ env.world events) :
    ∃ frames : List (Frame × Bool), w.framesTried = frames.map (fun f => (f.1.encode, f.2)) ∧
      (∀ f ∈ frames, f.1.type ∈ clientTypes) ∧
      ∀ (sent : List Frame) (rest), frames = sent.map (fun f => (f, true)) ++ rest →
        ∀ part, (part = [] ∨ ∃ f ∈ rest.head?, part <+: f.1.encode ∧ part ≠ f.1.encode) →
          whole protocolParse (sent.flatMap Frame.encode ++ part) =
            ⟨sent.map Frame.parsed, part, false⟩ := by
  obtain ⟨o, hrun, -⟩ := (keepsOutside_of_console hw).traced
  have htried : ∀ x ∈ w.framesTried, IsClientFrame x.1 := by
    intro x hx
    obtain ⟨effect, heffect, hframe⟩ := List.mem_filterMap.mp hx
    obtain ⟨s, t, -, hstep⟩ := hrun.of_mem (P := fun _ => True) (fun _ _ _ _ _ => trivial)
      trivial heffect
    cases hstep with
    | send o bytes ok hclient =>
      obtain rfl := Option.some.inj hframe
      exact hclient
    | _ => exact absurd hframe (by simp [Effect.triedFrame])
  obtain ⟨frames, htried, htypes⟩ := frames_of_client htried
  refine ⟨frames, htried, htypes, fun sent rest _ part hpart => whole_sent sent ?_⟩
  rcases hpart with rfl | ⟨f, -, hprefix, hne⟩
  · rfl
  · -- a strict front of a frame is that frame, cut off
    rw [List.prefix_iff_eq_take.mp hprefix]
    refine protocolParse_take_encode f.1 (lt_of_le_of_ne hprefix.length_le fun hlen => hne ?_)
    exact List.IsPrefix.eq_of_length hprefix hlen

theorem console_wire_acceptance :
    ∃ w ∈ eve.world acceptance, w.openPath 0 = some (utf8 "downloads/b") ∧
      ∃ frames : List (Frame × Bool), w.framesTried = frames.map (fun f => (f.1.encode, f.2)) ∧
        (∀ f ∈ frames, f.1.type ∈ clientTypes) ∧
        ∀ (sent : List Frame) (rest), frames = sent.map (fun f => (f, true)) ++ rest →
          ∀ part, (part = [] ∨ ∃ f ∈ rest.head?, part <+: f.1.encode ∧ part ≠ f.1.encode) →
            whole protocolParse (sent.flatMap Frame.encode ++ part) =
              ⟨sent.map Frame.parsed, part, false⟩ := by
  obtain ⟨w, hw, hopen⟩ := exists_acceptance
  exact ⟨w, hw, hopen, console_wire hw⟩

end TCPClient
