import TCPClient.Announcement
import TCPClient.FileSend
import TCPClient.FileRecv

namespace TCPClient

open Octets Memory

/-!
# `file.c` — the entry points of the file module

The entry points that concern both state machines: `/cancel`, announcements, frames, error
frames, reset.  `FileEvent` and `fileStep` make the module a state machine: one event for each
call the event loop can make, and `Reachable` for the states such calls lead to.
-/

namespace World

/-- `file_cmd_cancel` behind its argument. -/
def cancelTid (w : World) (io : Io) (tid : Nat) : World × Status :=
  if w.sendTaskMatches tid then
    match w.sendTid msgFileCancel tid io.sendOk with
    | (w, false) => (w, .lost)
    | (w, true) =>
      (w.sendTaskClear.print (utf8 "已取消 #" ++ (decimal tid ++ utf8 "。")), .ok)
  else
    match w.recvTaskFind tid with
    | none => (w.noSuchTransfer tid, .ok)
    | some i =>
      match w.sendTid msgFileCancel tid io.sendOk with
      | (w, false) => (w, .lost)
      | (w, true) =>
        ((w.recvTaskClear io i).print (utf8 "已取消 #" ++ (decimal tid ++ utf8 "。")), .ok)

/-- `file_cmd_cancel`. -/
def fileCmdCancel (w : World) (io : Io) (line : Bytes) : World × Status :=
  match commandsParseTidArg (line.drop 7) with
  | none => (w.print (utf8 "用法: /cancel <tid>"), .ok)
  | some tid => w.cancelTid io tid

/-- The cancel branch that announcements and CANCEL frames share. -/
def cancelled (w : World) (io : Io) (tid : Nat) : World :=
  if w.sendTaskMatches tid then w.sendTaskClear
  else
    match w.recvTaskFind tid with
    | none => w
    | some i => w.recvTaskClear io i

/-- The accept branch that announcements and ACCEPT frames share. -/
def accepted (w : World) (tid : Nat) : World :=
  if w.sendTaskMatches tid ∧ w.send.state = .pending then
    w.setSend { w.send with state := .active }
  else w

/-- The reject branch that announcements and REJECT frames share. -/
def rejected (w : World) (tid : Nat) : World :=
  if w.sendTaskMatches tid then w.sendTaskClear else w

/-- The switch of `file_handle_announcement`. -/
def announced (w : World) (io : Io) (kind : FileAnnKind) (tid : Nat) : World :=
  match kind with
  | .sendPending =>
    if w.send.busy ∧ w.send.state = .pendingTid then
      w.setSend { w.send with tid := tid, state := .pending }
    else w
  | .accepted => w.accepted tid
  | .rejected => w.rejected tid
  | .cancelled | .cancelledDisc => w.cancelled io tid
  | .complete =>
    -- a client that sends to itself has two tasks for the id: the send task goes first
    if w.sendTaskMatches tid ∧ w.send.state = .waitComplete then w.sendTaskClear
    else w.recvTaskComplete io tid
  | .recvPending => w.recvAnnounceIncoming io tid

/-- `file_handle_announcement`. -/
def fileHandleAnnouncement (w : World) (io : Io) (text : Bytes) : World :=
  match fileParseAnnouncement text with
  | none => w
  | some (kind, tid) => w.announced io kind tid

/-- The switch of `file_handle_frame` over the 4-byte control frames. -/
def controlFrame (w : World) (io : Io) (type : UInt8) (tid : Nat) : World :=
  if type = msgFileAccept then w.accepted tid
  else if type = msgFileReject then w.rejected tid
  else if type = msgFileCancel then w.cancelled io tid
  else if type = msgFileComplete then w.recvTaskComplete io tid
  else w

/-- `file_handle_frame`; `none` is a read outside the readable memory. -/
def fileHandleFrame (w : World) (io : Io) (type : UInt8) (payload : Ptr) (plen : Nat) :
    Option World :=
  -- four bytes are an id, whatever the type
  if plen = 4 then
    (read payload 0 4).map fun tid => w.controlFrame io type (utilsReadU32Be tid)
  else if type = msgFileInit then w.recvHandleInit payload plen
  else if type = msgFileChunk then w.recvHandleChunk io payload plen
  else some w

/-- `file_handle_error`. -/
def fileHandleError (w : World) (io : Io) (code : Nat) : World :=
  if code = errNoSuchUser then
    -- may come from another command, so only a task without an id is cleared
    if w.send.busy ∧ w.send.state = .pendingTid then w.sendTaskClear else w
  else if code = errTransferState then
    -- no id in the frame: both the send task and the open receive task go
    let w := if w.send.busy then w.sendTaskClear else w
    match w.recvTaskActive with
    | none => w
    | some i => w.recvTaskClear io i
  else w

/-- The loop of `file_reset_all` over the receive tasks. -/
def resetRecv (io : Slot → Io) (w : World) (i : Slot) : World :=
  if (w.recv i).busy then w.recvTaskClear (io i) i else w

/-- `file_reset_all`. -/
def fileResetAll (w : World) (io : Slot → Io) : World :=
  let w := if w.send.busy then w.sendTaskClear else w
  (List.finRange fileMaxRecvPending).foldl (resetRecv io) w

/-- `file_handle_frame` on a frame of the read buffer, as a function of its payload. -/
def fileFrame (w : World) (io : Io) (type : UInt8) (payload : Bytes) : World :=
  (w.fileHandleFrame io type (span payload []) payload.length).getD w

/-! ### Frames by their payload -/

/-- Four payload bytes are a control frame, whatever the type. -/
theorem fileFrame_control (w : World) (io : Io) (type : UInt8) {payload : Bytes}
    (h4 : payload.length = 4) :
    w.fileFrame io type payload = w.controlFrame io type (utilsReadU32Be payload) := by
  rw [fileFrame, fileHandleFrame, if_pos h4, read_span (by omega)]
  simp [List.take_of_length_le (le_of_eq h4)]

/-- An INIT payload of another length fills a waiting task when it is well formed. -/
theorem fileFrame_init (w : World) (io : Io) {payload : Bytes} (h4 : payload.length ≠ 4) :
    w.fileFrame io msgFileInit payload =
      match initFields payload with
      | none => w
      | some f => w.recvFillInit f := by
  rw [fileFrame, fileHandleFrame, if_neg h4, if_pos rfl, recvHandleInit,
    fileParseInitPayload_span]
  cases initFields payload <;> rfl

/-- A CHUNK payload long enough for its header is decoded into id, offset and data. -/
theorem fileFrame_chunk (w : World) (io : Io) {payload : Bytes} (h12 : 12 ≤ payload.length) :
    w.fileFrame io msgFileChunk payload =
      w.recvChunk io (utilsReadU32Be payload) (utilsReadU64Be (payload.drop 4))
        (payload.drop 12) := by
  have htid : utilsReadU32Be (payload.take 4) = utilsReadU32Be payload := by
    simp [utilsReadU32Be, List.take_take]
  have hoff : utilsReadU64Be ((payload.drop 4).take 8) = utilsReadU64Be (payload.drop 4) := by
    simp [utilsReadU64Be, List.take_take]
  have hdata : (payload.drop 12).take (payload.length - 12) = payload.drop 12 :=
    List.take_of_length_le (by rw [List.length_drop])
  rw [fileFrame, fileHandleFrame, if_neg (by omega), if_neg (by decide), if_pos rfl,
    recvHandleChunk, if_neg (by omega), read_span (by omega), Option.bind_some,
    read_span (by omega), Option.bind_some, read_span (by omega), Option.map_some,
    List.drop_zero, htid, hoff, hdata, Option.getD_some]

/-- Other frames change nothing. -/
theorem fileFrame_other (w : World) (io : Io) {type : UInt8} {payload : Bytes}
    (h4 : payload.length ≠ 4) (hinit : type ≠ msgFileInit)
    (hchunk : type = msgFileChunk → payload.length < 12) :
    w.fileFrame io type payload = w := by
  rw [fileFrame, fileHandleFrame, if_neg h4, if_neg hinit]
  by_cases hc : type = msgFileChunk
  · rw [if_pos hc, recvHandleChunk, if_pos (hchunk hc)]
    rfl
  · rw [if_neg hc]
    rfl

/-- **A frame of the read buffer never makes the module read outside its payload.** -/
theorem fileHandleFrame_span (w : World) (io : Io) (type : UInt8) (payload rest : Bytes) :
    w.fileHandleFrame io type (span payload rest) payload.length =
      some (w.fileFrame io type payload) := by
  have key : ∃ w', w.fileHandleFrame io type (span payload rest) payload.length = some w' ∧
      w.fileHandleFrame io type (span payload []) payload.length = some w' := by
    unfold fileHandleFrame recvHandleInit recvHandleChunk
    split_ifs with h4 hinit hchunk h12
    · rw [read_span (by omega), read_span (by omega)]
      exact ⟨_, rfl, rfl⟩
    · rw [fileParseInitPayload_span, fileParseInitPayload_span]
      exact ⟨_, rfl, rfl⟩
    · exact ⟨w, rfl, rfl⟩
    · simp only [read_span (show 0 + 4 ≤ payload.length by omega),
        read_span (show 4 + 8 ≤ payload.length by omega),
        read_span (show 12 + (payload.length - 12) ≤ payload.length by omega)]
      exact ⟨_, rfl, rfl⟩
    · exact ⟨w, rfl, rfl⟩
  obtain ⟨w', hrest, hnil⟩ := key
  rw [hrest, fileFrame, hnil, Option.getD_some]

/-- A frame whose payload parses reaches the receive tasks: it is never read as an id. -/
theorem fileHandleFrame_init (w : World) (io : Io) {payload : Bytes} {f : InitFields}
    (h : initFields payload = some f) (rest : Bytes) :
    w.fileHandleFrame io msgFileInit (span payload rest) payload.length =
      some (w.recvFillInit f) := by
  have hlen := six_le_of_initFields h
  rw [fileHandleFrame_span, fileFrame_init w io (by omega), h]

end World

/-- **The INIT payload codec**: what `protocol_build_text3` makes of good fields is parsed to
    these fields and handled as INIT; and what is parsed, without a read outside the payload,
    starts with three good fields, which are the outputs. -/
theorem init_payload_codec :
    (∀ f : InitFields, f.Wf →
      (∀ outCap : Int, protoHeaderSize + maxUsernameLen + maxFilenameLen + 32 ≤ outCap →
        protocolBuildText3 msgFileInit f.sender f.filename (decimal f.size) outCap =
          some (frameHeader msgFileInit f.payload.length ++ f.payload)) ∧
      (∀ rest, fileParseInitPayload (span f.payload rest) f.payload.length maxUsernameLen
        maxFilenameLen = some (some f)) ∧
      f.payload.length ≠ 4 ∧
      ∀ (w : World) (io : Io) (rest : Bytes),
        w.fileHandleFrame io msgFileInit (span f.payload rest) f.payload.length =
          some (w.recvFillInit f)) ∧
    (∀ payload rest : Bytes,
      ∃ answer, fileParseInitPayload (span payload rest) payload.length maxUsernameLen
          maxFilenameLen = some answer ∧
        fileParseInitPayload (span payload []) payload.length maxUsernameLen
          maxFilenameLen = some answer ∧
        ∀ f, answer = some f ↔
          f.Wf ∧ ∃ digits tail,
            payload = f.sender ++ 0 :: (f.filename ++ 0 :: (digits ++ 0 :: tail)) ∧
            digits ≠ [] ∧ (∀ b ∈ digits, IsDigit b) ∧ decimalValue 0 digits = f.size) := by
  constructor
  · intro f hwf
    have hparse := initFields_payload hwf
    have hlong := six_le_of_initFields hparse
    have hshort := length_payload_le hwf
    refine ⟨fun outCap hcap => ?_, fun rest => ?_, by omega,
      fun w io rest => w.fileHandleFrame_init io hparse rest⟩
    · apply protocolBuildText3_initFields hwf
      simp only [protoHeaderSize, maxUsernameLen, maxFilenameLen] at hcap
      omega
    · rw [fileParseInitPayload_span, hparse]
  · intro payload rest
    exact ⟨initFields payload, fileParseInitPayload_span payload rest,
      fileParseInitPayload_span payload [], fun f => initFields_eq_some⟩

/-! ### The module as a state machine -/

/-- The calls the event loop makes into the module. -/
inductive FileEvent where
  | sendfile (line : Bytes) (io : SendfileIo)
  | accept (line : Bytes) (io : Io)
  | reject (line : Bytes) (io : Io)
  | cancel (line : Bytes) (io : Io)
  | announcement (text : Bytes) (io : Io)
  | frame (type : UInt8) (payload : Bytes) (io : Io)
  | error (code : Nat) (io : Io)
  | tick (io : TickIo)
  | reset (io : Slot → Io)

/-- The state after a call. -/
def fileStep (w : World) : FileEvent → World
  | .sendfile line io => (w.fileCmdSendfile io line).1
  | .accept line io => (w.fileCmdAccept io line).1
  | .reject line io => (w.fileCmdReject io line).1
  | .cancel line io => (w.fileCmdCancel io line).1
  | .announcement text io => w.fileHandleAnnouncement io text
  | .frame type payload io => w.fileFrame io type payload
  | .error code io => w.fileHandleError io code
  | .tick io => (w.fileSendTick io).1
  | .reset io => w.fileResetAll io

/-- The state after a sequence of calls. -/
def fileRun (w : World) (events : List FileEvent) : World := events.foldl fileStep w

/-- The states of a client that starts over some files. -/
inductive Reachable : World → Prop where
  | init (disk : Bytes → Option Bytes) : Reachable (World.init disk)
  | step {w : World} (e : FileEvent) : Reachable w → Reachable (fileStep w e)

/-- **Reachable-state induction**: what holds at the start and is kept by every call holds in
    every reachable state. -/
theorem Reachable.invariant {P : World → Prop} (init : ∀ disk, P (World.init disk))
    (step : ∀ w e, P w → P (fileStep w e)) {w : World} (h : Reachable w) : P w := by
  induction h with
  | init disk => exact init disk
  | step e _ ih => exact step _ e ih

/-- Runs stay among the reachable states. -/
theorem Reachable.run {w : World} (h : Reachable w) (events : List FileEvent) :
    Reachable (fileRun w events) := by
  induction events generalizing w with
  | nil => exact h
  | cons e events ih => exact ih (Reachable.step e h)

end TCPClient
