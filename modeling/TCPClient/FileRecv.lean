import TCPClient.Commands
import TCPClient.Chunks
import TCPClient.InitPayload
import TCPClient.FileState

namespace TCPClient

open Octets Memory

/-!
# `file.c` — the receiving state machine

An incoming announcement makes a pending task, an INIT frame fills the oldest task that still
waits for one, `/accept` opens the file, CHUNK frames are written into it, and a completion
signal keeps or removes it.
-/

namespace World

/-- `recv_name_taken`: a name whose path cannot be built counts as taken. -/
def recvNameTaken (w : World) (name : Bytes) : Bool :=
  match fileJoinPath fileDownloadDir name 512 with
  | none => true
  | some path => w.filePathExists path

/-- `recv_task_finish`: a complete file is kept by blanking its name before the clear. -/
def recvTaskFinish (w : World) (io : Io) (i : Slot) : World :=
  let t := w.recv i
  if t.received = t.size then
    ((w.print (utf8 "文件 #" ++ (decimal t.tid ++ (utf8 " 接收完成，已保存: " ++
      (fileDownloadDir ++ (utf8 "/" ++ (t.saveName ++ (utf8 " (" ++ (decimal t.received ++
      utf8 " 字节)"))))))))).setRecv i { t with saveName := [] }).recvTaskClear io i
  else
    (w.print (utf8 "文件 #" ++ (decimal t.tid ++ (utf8 " 不完整（" ++ (decimal t.received ++
      (utf8 "/" ++ (decimal t.size ++ utf8 " 字节），已删除。"))))))).recvTaskClear io i

/-- `recv_task_complete`. -/
def recvTaskComplete (w : World) (io : Io) (tid : Nat) : World :=
  match w.recvTaskFind tid with
  | none => w
  | some i =>
    -- a pending task has no file to check
    if (w.recv i).fp.isSome then w.recvTaskFinish io i else w.recvTaskClear io i

/-- `recv_task_abort`. -/
def recvTaskAbort (w : World) (io : Io) (i : Slot) (why : Bytes) : World :=
  let t := w.recv i
  ((w.sendTid msgFileCancel t.tid io.sendOk).1.print
    (why ++ (utf8 "（#" ++ (decimal t.tid ++ utf8 "）")))).recvTaskClear io i

/-- `recv_task_reject`. -/
def recvTaskReject (w : World) (io : Io) (i : Slot) (why : Bytes) : World :=
  ((w.print why).sendTid msgFileReject (w.recv i).tid io.sendOk).1.recvTaskClear io i

/-- `recv_announce_incoming`. -/
def recvAnnounceIncoming (w : World) (io : Io) (tid : Nat) : World :=
  match w.recvTaskSlot with
  | none =>
    -- the INIT frame of this transfer will find no task of its own
    ((w.print (utf8 "接收任务已满，自动拒绝新传输。")).sendTid msgFileReject tid io.sendOk).1
  | some i =>
    let w := w.setRecv i { RecvTask.zero with busy := true, tid := tid, seq := w.recvSeq }
    { w with tasks := { w.tasks with recvSeq := (w.tasks.recvSeq + 1) % 2 ^ 64 } }

/-- The search of `recv_handle_init`: the waiting task with the smallest sequence number. -/
def recvInitBest (w : World) : Option Slot :=
  (List.finRange fileMaxRecvPending).foldl
    (fun best i =>
      if (w.recv i).busy ∧ ¬ (w.recv i).inited ∧
          (∀ b, best = some b → (w.recv i).seq < (w.recv b).seq) then some i
      else best)
    none

/-- The end of `recv_handle_init`: the fields go to the task that was found. -/
def recvFillInit (w : World) (f : InitFields) : World :=
  match w.recvInitBest with
  | none => w
  | some i =>
    w.setRecv i
      { w.recv i with inited := true, sender := f.sender, filename := f.filename, size := f.size }

/-- `recv_handle_init`; a payload that is not well formed is ignored. -/
def recvHandleInit (w : World) (payload : Ptr) (plen : Nat) : Option World :=
  (fileParseInitPayload payload plen maxUsernameLen maxFilenameLen).map fun
    | none => w
    | some f => w.recvFillInit f

/-- The part of `recv_handle_chunk` behind the decoding.  `fseek` takes a `long`. -/
def recvChunk (w : World) (io : Io) (tid offset : Nat) (data : Bytes) : World :=
  match w.recvTaskFind tid with
  | none => w
  | some i =>
    let t := w.recv i
    match t.fp with
    | none => w
    | some h =>
      if ¬ fileRecvSpanCheck t.size (t.bitmap.getD []) t.bitmapLen offset data.length then
        w.recvTaskAbort io i (utf8 "收到非法分片（重复/越界），已取消")
      else if ¬ io.fseekOk ∨ 2 ^ 63 ≤ offset then
        w.recvTaskAbort io i (utf8 "写入文件失败，已取消")
      else
        let w := w.fwrite h.path offset (io.fwritten data)
        -- a short write has reached the file, but is not counted
        if (io.fwritten data).length ≠ data.length then
          w.recvTaskAbort io i (utf8 "写入文件失败，已取消")
        else
          w.setRecv i
            { t with
              bitmap := t.bitmap.map fun b => fileRecvSpanMark b t.bitmapLen offset
              received := t.received + data.length
              fp := some { h with pos := offset + data.length } }

/-- A chunk for which no file is open is ignored. -/
theorem recvChunk_eq_self {w : World} {tid : Nat} (io : Io) (offset : Nat) (data : Bytes)
    (h : ∀ i, w.recvTaskFind tid = some i → (w.recv i).fp = none) :
    w.recvChunk io tid offset data = w := by
  unfold recvChunk
  cases hfind : w.recvTaskFind tid with
  | none => rfl
  | some i =>
    dsimp only
    rw [h i hfind]

/-- `recv_handle_chunk`. -/
def recvHandleChunk (w : World) (io : Io) (payload : Ptr) (plen : Nat) : Option World :=
  if plen < 12 then some w
  else
    (read payload 0 4).bind fun tid =>
      (read payload 4 8).bind fun offset =>
        (read payload 12 (plen - 12)).map fun data =>
          w.recvChunk io (utilsReadU32Be tid) (utilsReadU64Be offset) data

/-- The line for an id that no task has. -/
def noSuchTransfer (w : World) (tid : Nat) : World :=
  w.print (utf8 "没有 #" ++ (decimal tid ++ utf8 " 的传输记录。"))

/-- The last part of `file_cmd_accept`, once the save name is chosen: directory, bitmap, file,
    ACCEPT frame. -/
def acceptInto (w : World) (io : Io) (tid : Nat) (i : Slot) (saveName : Bytes) :
    World × Status :=
  -- name and bitmap belong to the task before the steps that can fail, which clear it
  let t := { w.recv i with saveName := saveName }
  let bitmapLen := fileChunkCount t.size fileChunkDataMax / 8 + 1
  if ¬ io.mkdirOk then
    ((w.setRecv i t).recvTaskReject io i
      (utf8 "无法创建接收目录 downloads/，已自动拒绝。"), .ok)
  else if ¬ io.mallocOk then
    (((w.emit (.malloc bitmapLen false)).setRecv i
      { t with bitmapLen := bitmapLen, bitmap := none }).recvTaskReject io i
        (utf8 "文件过大，无法接收，已自动拒绝。"), .ok)
  else
    let w := w.emit (.malloc bitmapLen true)
    let t := { t with bitmapLen := bitmapLen, bitmap := some (List.replicate bitmapLen 0) }
    match fileJoinPath fileDownloadDir saveName 512 with
    | none =>
      ((w.setRecv i t).recvTaskReject io i (utf8 "保存路径过长，已自动拒绝。"), .ok)
    | some path =>
      if ¬ io.fopenOk then
        ((w.setRecv i t).recvTaskReject io i (utf8 "无法创建文件，已自动拒绝。"), .ok)
      else
        let w := (w.fopenWrite path).setRecv i { t with fp := some ⟨path, 0⟩ }
        match w.sendTid msgFileAccept tid io.sendOk with
        | (w, false) => (w.recvTaskClear io i, .lost)
        | (w, true) =>
          (w.print (utf8 "已接受 #" ++ (decimal tid ++ (utf8 "，保存到: " ++ (fileDownloadDir ++
            (utf8 "/" ++ saveName))))), .ok)

/-- `file_cmd_accept` behind its argument. -/
def acceptTid (w : World) (io : Io) (tid : Nat) : World × Status :=
  match w.recvTaskFind tid with
  | none => (w.noSuchTransfer tid, .ok)
  | some i =>
    let t := w.recv i
    if t.fp.isSome then (w.print (utf8 "该传输已在接收中。"), .ok)
    -- one file at a time
    else if w.recvTaskActive.isSome then
      (w.print (utf8 "已有进行中的接收任务，完成或取消后再试。"), .ok)
    else if ¬ t.inited then (w.print (utf8 "传输详情未就绪，请稍后再试。"), .ok)
    else if t.size = 0 then
      (w.recvTaskReject io i (utf8 "文件大小为 0，已自动拒绝。"), .ok)
    else
      match fileBasenameSanitize t.filename maxFilenameLen with
      | none => (w.recvTaskReject io i (utf8 "文件名非法，已自动拒绝。"), .ok)
      | some base =>
        match fileUniqueName base w.recvNameTaken maxFilenameLen with
        | none => (w.recvTaskReject io i (utf8 "无法生成保存文件名，已自动拒绝。"), .ok)
        | some saveName => w.acceptInto io tid i saveName

/-- `file_cmd_accept`. -/
def fileCmdAccept (w : World) (io : Io) (line : Bytes) : World × Status :=
  match commandsParseTidArg (line.drop 7) with
  | none => (w.print (utf8 "用法: /accept <tid>"), .ok)
  | some tid => w.acceptTid io tid

/-- `file_cmd_reject` behind its argument. -/
def rejectTid (w : World) (io : Io) (tid : Nat) : World × Status :=
  match w.recvTaskFind tid with
  | none => (w.noSuchTransfer tid, .ok)
  | some i =>
    if (w.recv i).fp.isSome then
      (w.print (utf8 "#" ++ (decimal tid ++ utf8 " 正在接收中，请用 /cancel 取消。")), .ok)
    else
      match w.sendTid msgFileReject tid io.sendOk with
      | (w, false) => (w, .lost)
      | (w, true) =>
        ((w.print (utf8 "已拒绝 #" ++ (decimal tid ++ utf8 "。"))).recvTaskClear io i, .ok)

/-- `file_cmd_reject`. -/
def fileCmdReject (w : World) (io : Io) (line : Bytes) : World × Status :=
  match commandsParseTidArg (line.drop 7) with
  | none => (w.print (utf8 "用法: /reject <tid>"), .ok)
  | some tid => w.rejectTid io tid

end World
end TCPClient
