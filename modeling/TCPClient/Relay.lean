import TCPClient.Beside
import TCPClient.Progress
import TCPClient.Wire

namespace TCPClient

open Octets Memory Feed Cover

/-!
# A file from one client to another

The ticks of the sender put the frames of the file on its connection.  The server passes them on, in
whatever order but COMPLETE last, and among frames for other things; the receiver gets all of them
as a stream of bytes that is cut anywhere.  `relayed_transfer` says that the file arrives.
-/

/-! ### Frames as calls -/

/-- The call of the file module that `app_handle_frame` makes for a frame. -/
def frameCall (io : Io) (frame : UInt8 × Bytes) : Option FileEvent :=
  if frame.1 = msgServerMsg then some (.announcement (frame.2.takeWhile (· ≠ 0)) io)
  else if frame.1 = msgChat ∨ frame.1 = msgPriv ∨ frame.1 = msgGmsg then none
  else if frame.1 = msgError then
    if frame.2.length ≥ 3 then some (.error (utilsReadU16Be (frame.2.take 2)) io) else none
  else if frame.1 = msgOnlineUsers then none
  else if frame.1 = msgFileInit ∨ frame.1 = msgFileAccept ∨ frame.1 = msgFileReject ∨
      frame.1 = msgFileChunk ∨ frame.1 = msgFileComplete ∨ frame.1 = msgFileCancel then
    some (.frame frame.1 frame.2 io)
  else none

/-- The calls for some frames, with what the outside answers to each. -/
def frameCalls : (Nat → Io) → List (UInt8 × Bytes) → List FileEvent
  | _, [] => []
  | ios, frame :: frames =>
    (frameCall (ios 0) frame).toList ++ frameCalls (fun n => ios (n + 1)) frames

/-- **A frame.** Apart from what is shown, handling a confined frame is its call. -/
theorem SameFiles.handleFrame {v w : World} (h : SameFiles v w) (io : Io)
    {frame : UInt8 × Bytes} (hconfined : AppConfined frame.1 frame.2) :
    ∃ w', w.appHandleFrame io frame.1 (span frame.2 []) frame.2.length = some w' ∧
      SameFiles (fileRun v (frameCall io frame).toList) w' := by
  obtain ⟨type, payload⟩ := frame
  obtain ⟨w', hw'⟩ := (confined_appHandleFrame w io type payload).mpr hconfined
  refine ⟨w', hw' [], ?_⟩
  have hhandled := hw' []
  unfold World.appHandleFrame at hhandled
  unfold frameCall
  dsimp only at hhandled ⊢
  split_ifs at hhandled ⊢ with hserver hchat herror h3 husers hfile
  · obtain ⟨text, htext, rfl⟩ := Option.map_eq_some_iff.mp hhandled
    rw [cstr_span_nil] at htext
    split_ifs at htext
    obtain rfl := Option.some.inj htext
    exact (h.emit (x := .incoming _) id).step (.announcement _ io)
  · obtain ⟨text, -, rfl⟩ := Option.map_eq_some_iff.mp hhandled
    exact h.emit id
  · obtain ⟨code, hcode, hhandled⟩ := Option.bind_eq_some_iff.mp hhandled
    obtain ⟨message, -, rfl⟩ := Option.map_eq_some_iff.mp hhandled
    rw [read_span (by omega)] at hcode
    obtain rfl := Option.some.inj hcode
    exact (h.emit (x := .incoming _) id).step (.error _ io)
  · exact Option.some.inj hhandled ▸ h
  · obtain ⟨head, -, hhandled⟩ := Option.bind_eq_some_iff.mp hhandled
    obtain ⟨users, -, rfl⟩ := Option.map_eq_some_iff.mp hhandled
    exact h.emit id
  · rw [World.fileHandleFrame_span] at hhandled
    exact Option.some.inj hhandled ▸ h.step (.frame type payload io)
  · exact Option.some.inj hhandled ▸ h.emit id

/-- **Any number of frames.** -/
theorem SameFiles.handleAll {v w : World} (h : SameFiles v w) (ios : Nat → Io)
    {frames : List (UInt8 × Bytes)} (hconfined : ∀ f ∈ frames, AppConfined f.1 f.2) :
    ∃ w', (handleAll appHandler (some w, ios) frames).1 = some w' ∧
      SameFiles (fileRun v (frameCalls ios frames)) w' := by
  induction frames generalizing v w ios with
  | nil => exact ⟨w, rfl, h⟩
  | cons frame frames ih =>
    obtain ⟨w', hw', hsame⟩ := h.handleFrame (ios 0) (hconfined frame List.mem_cons_self)
    obtain ⟨w'', hw'', hall⟩ := ih hsame (fun n => ios (n + 1))
      fun f hf => hconfined f (List.mem_cons_of_mem frame hf)
    refine ⟨w'', ?_, ?_⟩
    · rw [← hw'']
      show (TCPClient.handleAll appHandler
        ((some w : Option World).bind _, fun n => ios (n + 1)) frames).1 = _
      rw [Option.bind_some, hw']
    · rw [frameCalls, fileRun, List.foldl_append]
      exact hall

/-! ### Which calls these are -/

/-- The calls for frames in a row. -/
theorem frameCalls_append (ios : Nat → Io) (xs ys : List (UInt8 × Bytes)) :
    frameCalls ios (xs ++ ys) =
      frameCalls ios xs ++ frameCalls (fun n => ios (n + xs.length)) ys := by
  induction xs generalizing ios with
  | nil => rfl
  | cons x xs ih =>
    rw [List.cons_append, frameCalls, frameCalls, ih, List.append_assoc, List.length_cons]
    simp only [Nat.add_assoc]

/-- Every such call comes from one of the frames. -/
theorem exists_of_mem_frameCalls {ios : Nat → Io} {frames : List (UInt8 × Bytes)} {e : FileEvent}
    (h : e ∈ frameCalls ios frames) : ∃ n, ∃ f ∈ frames, frameCall (ios n) f = some e := by
  induction frames generalizing ios with
  | nil => exact absurd h (by simp [frameCalls])
  | cons frame frames ih =>
    rw [frameCalls, List.mem_append, Option.mem_toList] at h
    rcases h with h | h
    · exact ⟨0, frame, List.mem_cons_self, h⟩
    · obtain ⟨n, f, hf, hcall⟩ := ih h
      exact ⟨n + 1, f, List.mem_cons_of_mem frame hf, hcall⟩

/-- A call gets the answer that comes with its frame. -/
theorem allIo_of_frameCall {Q : Io → Prop} {io : Io} {frame : UInt8 × Bytes} {e : FileEvent}
    (h : frameCall io frame = some e) (hio : Q io) : e.AllIo Q := by
  unfold frameCall at h
  split_ifs at h <;> exact Option.some.inj h ▸ hio

/-- The chunks among the calls are those among the frames. -/
theorem chunkFor_frameCall (io : Io) (tid : Nat) (frame : UInt8 × Bytes) :
    (frameCall io frame).bind (FileEvent.chunkFor tid) = chunkOf tid frame := by
  by_cases hchunk : frame.1 = msgFileChunk
  · have hcall : frameCall io frame = some (.frame frame.1 frame.2 io) := by
      rw [frameCall, hchunk]
      rfl
    rw [hcall]
    rfl
  · have hnone : chunkOf tid frame = none := if_neg fun h => hchunk h.1
    rw [hnone]
    unfold frameCall
    split_ifs <;> first | rfl | exact hnone

/-- The chunks among the calls are those among the frames. -/
theorem filterMap_chunkFor_frameCalls (tid : Nat) (ios : Nat → Io)
    (frames : List (UInt8 × Bytes)) :
    (frameCalls ios frames).filterMap (FileEvent.chunkFor tid) =
      frames.filterMap (chunkOf tid) := by
  induction frames generalizing ios with
  | nil => rfl
  | cons frame frames ih =>
    rw [frameCalls, List.filterMap_append, ih, List.filterMap_cons]
    have hframe := chunkFor_frameCall (ios 0) tid frame
    cases hcall : frameCall (ios 0) frame with
    | none =>
      rw [hcall] at hframe
      rw [← hframe]
      rfl
    | some e =>
      rw [hcall, Option.bind_some] at hframe
      rw [← hframe]
      cases hfor : e.chunkFor tid <;> simp [hfor]

/-! ### The two clients -/

/-- The run of a sender that puts out all of the file `c` and COMPLETE. -/
structure SmoothSender (c : Bytes) where
  before : World
  reachable : Reachable before
  pending : before.send.state = .pending
  size : before.send.size = c.length
  accept : FileEvent
  active : (fileStep before accept).send.state = .active
  events : List FileEvent
  smooth : SmoothRun c before.send.tid events
  enough : roundsFor c < events.countP FileEvent.isTick

namespace SmoothSender

variable {c : Bytes} (s : SmoothSender c)

def tid : Nat := s.before.send.tid

/-- The frames that its ticks send. -/
def frames : List Bytes :=
  (tickEffects (fileStep s.before s.accept) s.events).filterMap Effect.sentFrame

/-- A piece is sent as one CHUNK frame. -/
theorem sentFrame_pieceEffects (tid : Nat) (c : Bytes) (k : Nat) :
    (pieceEffects tid c k).filterMap Effect.sentFrame =
      [chunkFrame tid (piece fileChunkDataMax c k)] := by
  unfold pieceEffects
  split_ifs <;> rfl

/-- The pieces in order, and COMPLETE. -/
theorem frames_eq (hlen : c.length * 100 < 2 ^ 64) :
    s.frames = (chunks c).map (chunkFrame s.tid) ++ [(tidFrame msgFileComplete s.tid).encode] := by
  have hstart := s.reachable.onSchedule s.pending s.size s.active
  have hall : chunkCount c ≤ fileChunksPerRound * s.events.countP FileEvent.isTick := by
    have := mt (lt_roundsFor_iff c _).mp s.enough.not_gt
    omega
  have hchunks : chunks c = (List.range (chunkCount c)).map (piece fileChunkDataMax c) := by
    rw [chunkCount, chunks, pieces, List.length_map, List.length_range]
  rw [frames, tickEffects_eq hlen hstart s.smooth, schedule, if_pos s.enough, min_eq_right hall,
    List.filterMap_append, List.filterMap_flatMap, hchunks, List.map_map, List.map_eq_flatMap]
  simp only [sentFrame_pieceEffects]
  rfl

end SmoothSender

/-- The event loop of a receiver right behind its `/accept`, with part of a frame in its buffer at
    most, and file operations that succeed. -/
structure ReceiverLoop (r : ReceiverStart) where
  app : App (Option World × (Nat → Io))
  ios : Nat → Io
  base : Bytes
  running : app.running = true
  waiting : protocolParse app.rbuf = .more
  received : app.received = base ++ app.rbuf
  state : app.state = (some r.start, ios)
  filesWork : ∀ n, (ios n).FilesWork

/-- The loop after some pieces. -/
def ReceiverLoop.after {r : ReceiverStart} (l : ReceiverLoop r) (pieces : List Bytes) :
    App (Option World × (Nat → Io)) :=
  appRun appHandler l.app (pieces.map socketPoll)

/-- The loop does what its frames say, however the stream was cut. -/
theorem ReceiverLoop.follows {r : ReceiverStart} (l : ReceiverLoop r) (pieces : List Bytes) :
    Follows appHandler l.base (some r.start, l.ios) (l.after pieces) := by
  refine Follows.run ⟨l.app.rbuf, l.received, fun _ => ?_, fun _ => ?_⟩ pieces
  · rw [whole_more l.waiting, l.state]
    rfl
  · rw [whole_more l.waiting]
    exact ⟨rfl, rfl⟩

/-- The frames that the server passes on up to COMPLETE: those of the transfer in some order, and
    others that are no business of it. -/
structure Relayed (tid : Nat) (sent : List Bytes) (before : List Frame) : Prop where
  others : ∀ f ∈ before, (chunkOf tid f.parsed).isSome ∨
    ∀ io, ∀ e ∈ frameCall io f.parsed, e.Beside tid
  passed : ((before.filter fun f => (chunkOf tid f.parsed).isSome).map Frame.encode ++
    [(tidFrame msgFileComplete tid).encode]).Perm sent

/-- The chunks of a stream, with their payloads. -/
theorem filterMap_chunkOf_parsed (tid : Nat) (frames : List Frame) :
    (frames.map Frame.parsed).filterMap (chunkOf tid) =
      (frames.filter fun f => (chunkOf tid f.parsed).isSome).map Frame.payload := by
  induction frames with
  | nil => rfl
  | cons f frames ih =>
    rw [List.map_cons, List.filterMap_cons, List.filter_cons, ih]
    cases hchunk : chunkOf tid f.parsed with
    | none => rfl
    | some payload =>
      unfold chunkOf at hchunk
      split_ifs at hchunk
      obtain rfl := Option.some.inj hchunk
      rfl

/-- The chunks that are passed on. -/
theorem Relayed.exists_perm {tid : Nat} {c : Bytes} {before : List Frame}
    (h : Relayed tid ((chunks c).map (chunkFrame tid) ++
      [(tidFrame msgFileComplete tid).encode]) before) :
    ∃ ws : List Write, ws.Perm (chunks c) ∧
      (before.map Frame.parsed).filterMap (chunkOf tid) = ws.map (chunkPayload tid) := by
  have hperm := (List.perm_append_right_iff _).mp h.passed
  obtain ⟨ws, hframes, hws⟩ :=
    (congrFun₂ (List.eq_map_comp_perm (chunkFrame tid)) _ _).mpr hperm
  refine ⟨ws, hws, ?_⟩
  -- the payload is what stands behind the five bytes of the header
  have hpayloads := congrArg (List.map (List.drop 5)) hframes
  have hframe (f : Frame) : f.encode.drop 5 = f.payload := List.drop_left' (by simp)
  have hchunk (p : Write) : (chunkFrame tid p).drop 5 = chunkPayload tid p :=
    List.drop_left' (by simp)
  simp only [List.map_map, Function.comp_def, hframe, hchunk] at hpayloads
  rw [filterMap_chunkOf_parsed]
  exact hpayloads

/-- Every frame up to COMPLETE is no business of the transfer, or a chunk that can be written. -/
theorem Relayed.calls {tid : Nat} {sent : List Bytes} {before : List Frame}
    (h : Relayed tid sent before) {ios : Nat → Io} (hios : ∀ n, (ios n).FilesWork) :
    ∀ e ∈ frameCalls ios (before.map Frame.parsed),
      e.Beside tid ∨ (e.chunkFor tid).isSome ∧ e.AllIo Io.FilesWork := by
  intro e he
  obtain ⟨n, frame, hframe, hcall⟩ := exists_of_mem_frameCalls he
  obtain ⟨f, hf, rfl⟩ := List.mem_map.mp hframe
  rcases h.others f hf with hchunk | hbeside
  · have hfor := chunkFor_frameCall (ios n) tid f.parsed
    rw [hcall, Option.bind_some] at hfor
    exact .inr ⟨hfor ▸ hchunk, allIo_of_frameCall hcall (hios n)⟩
  · exact .inl (hbeside (ios n) e hcall)

/-- **A file from one client to another.** The sender's ticks put out the frames of the file; the
    receiver, behind its `/accept`, gets them in any order but COMPLETE last, among any other frames
    that are confined to their payloads, and however its stream is cut: at every moment from
    COMPLETE on, it has the file, byte for byte, under the name it chose. -/
theorem relayed_transfer {c : Bytes} (hlen : c.length * 100 < 2 ^ 64) (s : SmoothSender c)
    {r : ReceiverStart} (htid : r.tid = s.tid) (hsize : r.size = c.length) (l : ReceiverLoop r)
    {before after : List Frame} (hrelayed : Relayed s.tid s.frames before)
    (hconfined : ∀ f ∈ before ++ after, AppConfined f.type f.payload)
    {part : Bytes} (hpart : protocolParse part = .more) {pieces : List Bytes}
    (hreceived : (l.after pieces).received = l.base ++
      ((before ++ tidFrame msgFileComplete s.tid :: after).flatMap Frame.encode ++ part)) :
    ∃ w ∈ (l.after pieces).state.1, w.disk r.handle.path = some c := by
  rw [s.frames_eq hlen] at hrelayed
  rw [← htid] at hrelayed hreceived
  obtain ⟨stream, hstream, hstate, -⟩ := l.follows pieces
  rw [hreceived] at hstream
  obtain rfl := List.append_cancel_left hstream
  rw [whole_sent _ hpart] at hstate
  have hall : ∀ f ∈ (before ++ tidFrame msgFileComplete r.tid :: after).map Frame.parsed,
      AppConfined f.1 f.2 := by
    intro f hf
    obtain ⟨frame, hframe, rfl⟩ := List.mem_map.mp hf
    rcases List.mem_append.mp hframe with hbefore | hafter
    · exact hconfined frame (List.mem_append_left _ hbefore)
    · rcases List.mem_cons.mp hafter with rfl | hafter
      · simp [AppConfined, Frame.parsed, tidFrame]
      · exact hconfined frame (List.mem_append_right _ hafter)
  obtain ⟨w, hw, hsame⟩ := (SameFiles.refl r.start).handleAll l.ios hall
  have hstate := hstate fun f hf => handledAlone_of_appConfined (hall f hf)
  refine ⟨w, (congrArg Prod.fst hstate).trans hw, ?_⟩
  obtain ⟨ws, hws, hchunks⟩ := hrelayed.exists_perm
  rw [← filterMap_chunkFor_frameCalls r.tid l.ios] at hchunks
  rw [← hsame.disk, List.map_append, List.map_cons, frameCalls_append, frameCalls]
  have hread : utilsReadU32Be (utilsWriteU32Be r.tid) = r.tid := by
    rw [← List.append_nil (utilsWriteU32Be r.tid), utilsReadU32Be_write]
    exact Nat.mod_eq_of_lt r.tid_lt
  have hsaved (io : Io) (hio : io.FilesWork) :=
    r.saved (by omega) hsize (hrelayed.calls l.filesWork) hws hchunks
      (.frame (utilsWriteU32Be r.tid) (by simp) hread) hio fun text h => absurd h (by simp)
  rw [fileRun, List.foldl_append]
  exact ((hsaved _ (l.filesWork _)).run (.step _ (r.reachable_start.run _)) _).disk

/-- The sender of the one-byte file, with the tick for COMPLETE. -/
def oneByteTicks : SmoothSender [65] where
  before := sendingClient
  reachable := oneByteSender.reachable
  pending := oneByteSender.pending
  size := oneByteSender.size
  accept := oneByteSender.accept
  active := oneByteSender.active
  events := twoTicks
  smooth := smoothRun_twoTicks
  enough := by decide

def oneByteLoop : ReceiverLoop oneByteReceiver where
  app := App.start [] appRbufInit (some oneByteReceiver.start, fun _ => Io.ok)
  ios := fun _ => Io.ok
  base := []
  running := rfl
  waiting := rfl
  received := rfl
  state := rfl
  filesWork := fun _ => ⟨rfl, rfl, rfl, rfl⟩

/-- Somebody chats while the file is sent. -/
def chatting : Frame := ⟨msgChat, utf8 "hi" ++ [0], by decide +kernel⟩

def oneByteBefore : List Frame :=
  [chatting, ⟨msgFileChunk, chunkPayload 7 (0, [65]), by decide⟩]

def oneByteStream : Bytes :=
  (oneByteBefore ++ tidFrame msgFileComplete oneByteTicks.tid :: [chatting]).flatMap Frame.encode

theorem relayed_one_byte : Relayed oneByteTicks.tid oneByteTicks.frames oneByteBefore := by
  refine ⟨fun f hf => ?_, by decide +kernel⟩
  rcases List.mem_pair.mp hf with rfl | rfl
  · refine .inr fun io e he => ?_
    have hnone : frameCall io chatting.parsed = none := rfl
    rw [hnone] at he
    exact absurd he (by simp)
  · exact .inl (by decide +kernel)

theorem confined_chatting : AppConfined chatting.type chatting.payload :=
  ⟨fun _ => by decide +kernel, fun h => absurd h (by decide), fun h => absurd h (by decide)⟩

theorem relayed_transfer_one_byte :
    ∃ w ∈ (oneByteLoop.after [oneByteStream.take 3, oneByteStream.drop 3]).state.1,
      w.disk (utf8 "downloads/a") = some [65] := by
  have hconfined : ∀ f ∈ oneByteBefore ++ [chatting], AppConfined f.type f.payload := by
    intro f hf
    rcases List.mem_append.mp hf with hf | hf
    · rcases List.mem_pair.mp hf with rfl | rfl
      · exact confined_chatting
      · simp [AppConfined]
    · rw [List.mem_singleton.mp hf]
      exact confined_chatting
  exact relayed_transfer (by decide) oneByteTicks (by decide +kernel) (by decide +kernel)
    oneByteLoop relayed_one_byte hconfined protocolParse_stable.nil (by decide +kernel)

end TCPClient
