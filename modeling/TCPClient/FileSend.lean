import TCPClient.Commands
import TCPClient.Chunks
import TCPClient.FileState

namespace TCPClient

open Octets

/-!
# `file.c` — the sending state machine

`/sendfile` registers the task and sends INIT, announcements and frames move it on (see
`FileModule`), and `file_send_tick` sends the chunks and then COMPLETE.
-/

/-- What the outside answers to `/sendfile`; `fsize` is the result of `ftell`, a `long`. -/
structure SendfileIo where
  fopenOk : Bool
  seekEndOk : Bool
  fsize : Int
  seekSetOk : Bool
  sendOk : Bool
  fsizeLong : fsize < 2 ^ 63

theorem SendfileIo.fsizeLong_one : (1 : Int) < 2 ^ 63 := by decide

/-- What the outside answers to one `file_send_tick`: the bytes `fread` delivers at a position
    for a count, and whether the `i`-th send succeeds. -/
structure TickIo where
  fread : Nat → Nat → Bytes
  sendOk : Nat → Bool

namespace World

/-- The second half of `file_cmd_sendfile`: register the task, send INIT. -/
def sendInit (w : World) (sendOk : Bool) (target filename : Bytes) (size : Nat) :
    World × Status :=
  let w := w.setSend
    { SendTask.zero with
      busy := true
      state := .pendingTid
      fp := some ⟨filename, 0⟩
      size := size
      nextProgressMark := fileProgressInterval
      target := target
      filename := filename }
  -- the task is there before the frame is, and goes again when the frame cannot be sent
  match protocolBuildText3 msgFileInit target filename (decimal size)
      (protoHeaderSize + maxUsernameLen + maxFilenameLen + 32) with
  | none => (w.sendTaskClear, .lost)
  | some frame =>
    match w.connSendAll frame sendOk with
    | (w, false) => (w.sendTaskClear, .lost)
    | (w, true) =>
      (w.print (utf8 "已提交文件传输: '" ++ (filename ++ (utf8 "' (" ++ (decimal size ++
        (utf8 " 字节) → " ++ target))))), .ok)

/-- `file_cmd_sendfile`. -/
def fileCmdSendfile (w : World) (io : SendfileIo) (line : Bytes) : World × Status :=
  match commandsParseSendfile line maxUsernameLen maxFilenameLen with
  | none => (w.print (utf8 "用法: /sendfile <用户> <文件>"), .ok)
  | some (target, filename) =>
    if w.send.busy then
      (w.print (utf8 "已有进行中的发送任务，完成或取消后再试。"), .ok)
    else if ¬ io.fopenOk then (w.print (utf8 "无法打开文件: " ++ filename), .ok)
    else
      let w := w.emit (.fopenRead filename)
      -- `ftell` answers -1 for a file without a size
      if ¬ io.seekEndOk ∨ io.fsize < 0 ∨ ¬ io.seekSetOk then
        ((w.emit (.fclose filename true)).print (utf8 "无法读取文件。"), .ok)
      else if io.fsize = 0 then
        ((w.emit (.fclose filename true)).print (utf8 "空文件无法发送。"), .ok)
      else w.sendInit io.sendOk target filename io.fsize.toNat

/-- What `/sendfile` needs: arguments that fit, no other transfer under way, and a file that can
    be opened and has a size. -/
structure Submits (w : World) (io : SendfileIo) (line target filename : Bytes) : Prop where
  parse : commandsParseSendfile line maxUsernameLen maxFilenameLen = some (target, filename)
  idle : w.send.busy = false
  file : io.fopenOk = true ∧ io.seekEndOk = true ∧ io.seekSetOk = true
  size : 0 < io.fsize

/-- What `/sendfile` answers when it refuses. -/
def sendfileRefusals (filename : Bytes) : List Bytes :=
  [utf8 "用法: /sendfile <用户> <文件>", utf8 "已有进行中的发送任务，完成或取消后再试。",
    utf8 "无法打开文件: " ++ filename, utf8 "无法读取文件。", utf8 "空文件无法发送。"]

/-- **What `/sendfile` can do**: refuse at once, give the file up again, or submit it. -/
theorem fileCmdSendfile_cases (w : World) (io : SendfileIo) (line : Bytes)
    {P : World × Status → Prop}
    (refused : (∀ target filename, ¬ w.Submits io line target filename) →
      ∀ filename, ∀ text ∈ sendfileRefusals filename, P (w.print text, .ok))
    (givenUp : (∀ target filename, ¬ w.Submits io line target filename) → w.send.busy = false →
      ∀ filename, ∀ text ∈ sendfileRefusals filename,
        P (((w.emit (.fopenRead filename)).emit (.fclose filename true)).print text, .ok))
    (submitted : ∀ target filename, w.Submits io line target filename →
      P ((w.emit (.fopenRead filename)).sendInit io.sendOk target filename io.fsize.toNat)) :
    P (w.fileCmdSendfile io line) := by
  unfold fileCmdSendfile
  cases hparse : commandsParseSendfile line maxUsernameLen maxFilenameLen with
  | none =>
    refine refused (fun target filename h => ?_) [] _ (by simp [sendfileRefusals])
    exact absurd (hparse.symm.trans h.parse) (by simp)
  | some args =>
    obtain ⟨target, filename⟩ := args
    dsimp only
    split_ifs with hbusy hopen hseek hempty
    · exact refused (fun _ _ h => by simp [h.idle] at hbusy) [] _ (by simp [sendfileRefusals])
    · refine givenUp (fun _ _ h => ?_) (by simpa using hbusy) filename _
        (by simp [sendfileRefusals])
      have hsize := h.size
      rcases hseek with hseek | hseek | hseek
      · exact hseek h.file.2.1
      · omega
      · exact hseek h.file.2.2
    · exact givenUp (fun _ _ h => by have hsize := h.size; omega) (by simpa using hbusy) filename _
        (by simp [sendfileRefusals])
    · obtain ⟨hend, hrest⟩ := not_or.mp hseek
      obtain ⟨hsize, hset⟩ := not_or.mp hrest
      exact submitted target filename ⟨hparse, by simpa using hbusy,
        ⟨hopen, not_not.mp hend, not_not.mp hset⟩, by omega⟩
    · exact refused (fun _ _ h => hopen h.file.1) filename _ (by simp [sendfileRefusals])

/-- `file_send_active`. -/
def fileSendActive (w : World) : Bool :=
  w.send.busy && (w.send.state == .active || w.send.state == .done)

/-- The progress line of `file_send_tick`, once the mark is passed. -/
def showProgress (w : World) : World :=
  let t := w.send
  if t.sent ≥ t.nextProgressMark then
    let pct := (t.sent * 100 % 2 ^ 64 / t.size) % 2 ^ 32
    (w.displayIncoming (utf8 "发送中 #" ++ (decimal t.tid ++ (utf8 ": " ++ (decimal t.sent ++
      (utf8 "/" ++ (decimal t.size ++ (utf8 " 字节 (" ++ (decimal pct ++
      utf8 "%)"))))))))).setSend
      { t with nextProgressMark := t.nextProgressMark + fileProgressInterval }
  else w

/-- One round of the loop of `file_send_tick`; a status is an early return. -/
def tickChunk (w : World) (io : TickIo) (i : Nat) : World × Option Status :=
  match fileChunkPlan w.send.size fileChunkDataMax (w.send.sent / fileChunkDataMax) with
  | none => (w.sendTaskClear, some .ok)
  | some (offset, len) =>
    let pos := match w.send.fp with
      | none => 0
      | some h => h.pos
    let data := (io.fread pos len).take len
    if data.length ≠ len then
      -- the file got shorter: the peer is told, whether or not the frame goes out
      let w := w.print (utf8 "读取文件失败，已取消传输。")
      ((w.sendTid msgFileCancel w.send.tid (io.sendOk i)).1.sendTaskClear, some .ok)
    else
      match protocolBuildChunk w.send.tid offset data
          (protoHeaderSize + 12 + fileChunkDataMax) with
      | none => (w.sendTaskClear, some .lost)
      | some frame =>
        match w.connSendAll frame (io.sendOk i) with
        | (w, false) => (w.sendTaskClear, some .lost)
        | (w, true) =>
          ((w.setSend
            { w.send with
              sent := w.send.sent + len
              fp := w.send.fp.map fun h => { h with pos := h.pos + len } }).showProgress, none)

/-- The end of `file_send_tick`: everything is sent, COMPLETE follows in the next tick. -/
def tickEnd (w : World) : World :=
  if w.send.sent ≥ w.send.size then w.setSend { w.send with state := .done } else w

/-- The loop of `file_send_tick`, with `fuel` rounds left from round `i`. -/
def tickLoop (io : TickIo) : Nat → Nat → World → World × Status
  | 0, _, w => (w.tickEnd, .ok)
  | fuel + 1, i, w =>
    if w.send.sent < w.send.size then
      match w.tickChunk io i with
      | (w, none) => tickLoop io fuel (i + 1) w
      | (w, some status) => (w, status)
    else (w.tickEnd, .ok)

/-- `file_send_tick`. -/
def fileSendTick (w : World) (io : TickIo) : World × Status :=
  if ¬ w.send.busy then (w, .ok)
  else if w.send.state ≠ .active ∧ w.send.state ≠ .done then (w, .ok)
  else if w.send.state = .done then
    -- a whole tick lies between the last chunk and COMPLETE
    match w.sendTid msgFileComplete w.send.tid (io.sendOk 0) with
    | (w, false) => (w, .lost)
    | (w, true) => (w.setSend { w.send with state := .waitComplete }, .ok)
  else tickLoop io fileChunksPerRound 0 w

end World
end TCPClient
