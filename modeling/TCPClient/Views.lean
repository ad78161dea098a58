import TCPClient.FileModule

namespace TCPClient

open Octets Memory

/-!
# `file.c` — what each side of the module looks at

The log is written and never read; the receiving side does not look at the send task, and the
sending side neither at the receive table nor at the files.

* `LogBlind`, `RecvBlind` and `SendBlind` are the changes of the state that what only writes the
  log, the receiving side and the sending side do not notice: each operation commutes with them;
* `World.behind` puts earlier effects in front of the log, which is a change of all three kinds;
* `fileStep_behind` — every call of the module commutes with it, and so does every run;
* `fileRun_eq_behind` — two clients with the same tasks and files run alike, and add the same
  effects to their logs.
-/

namespace World

/-- `recv_seq` moves on. -/
def numbered (w : World) : World :=
  { w with tasks := { w.tasks with recvSeq := (w.tasks.recvSeq + 1) % 2 ^ 64 } }

/-- The end of `file_handle_error`. -/
def clearActive (w : World) (io : Io) : World :=
  match w.recvTaskActive with
  | none => w
  | some i => w.recvTaskClear io i

/-- What `/accept`, `/reject` and `/cancel` do with their argument. -/
def tidCommand (w : World) (usage : Bytes) (command : World → Nat → World × Status) :
    Option Nat → World × Status
  | none => (w.print usage, .ok)
  | some tid => command w tid

end World

/-- A change that effects are added behind. -/
structure LogBlind where
  map : World → World
  emit_map : ∀ w e, (map w).emit e = map (w.emit e)

/-- A change that leaves the receive table and the files as they are, and goes on doing so. -/
structure RecvBlind extends LogBlind where
  recv_map : ∀ w, (map w).tasks.recv = w.tasks.recv
  disk_map : ∀ w, (map w).disk = w.disk
  setDisk_map : ∀ w path content, (map w).setDisk path content = map (w.setDisk path content)
  setRecv_map : ∀ w i t, (map w).setRecv i t = map (w.setRecv i t)
  recvSeq_map : ∀ w, (map w).tasks.recvSeq = w.tasks.recvSeq
  numbered_map : ∀ w, (map w).numbered = map w.numbered

/-- A change that leaves the send task as it is, and goes on doing so. -/
structure SendBlind extends LogBlind where
  send_map : ∀ w, (map w).tasks.send = w.tasks.send
  setSend_map : ∀ w t, (map w).setSend t = map (w.setSend t)

attribute [simp] LogBlind.emit_map RecvBlind.recv_map RecvBlind.disk_map RecvBlind.setDisk_map
  RecvBlind.setRecv_map RecvBlind.recvSeq_map RecvBlind.numbered_map SendBlind.send_map
  SendBlind.setSend_map

/-! ### Effects -/

namespace LogBlind

variable (f : LogBlind) (w : World)

/-- The change of the state behind a command. -/
def res (r : World × Status) : World × Status := (f.map r.1, r.2)

@[simp] theorem print (text : Bytes) : (f.map w).print text = f.map (w.print text) :=
  f.emit_map w _

@[simp] theorem displayIncoming (text : Bytes) :
    (f.map w).displayIncoming text = f.map (w.displayIncoming text) := f.emit_map w _

@[simp] theorem connSendAll (frame : Bytes) (sendOk : Bool) :
    (f.map w).connSendAll frame sendOk = (f.map (w.connSendAll frame sendOk).1, sendOk) := by
  simp [World.connSendAll]

@[simp] theorem sendTid (msgType : UInt8) (tid : Nat) (sendOk : Bool) :
    (f.map w).sendTid msgType tid sendOk =
      (f.map (w.sendTid msgType tid sendOk).1, (w.sendTid msgType tid sendOk).2) := by
  simp [World.sendTid_eq]

@[simp] theorem noSuchTransfer (tid : Nat) :
    (f.map w).noSuchTransfer tid = f.map (w.noSuchTransfer tid) := f.print w _

theorem tidCommand (usage : Bytes) (c : World → Nat → World × Status)
    (hc : ∀ tid, c (f.map w) tid = f.res (c w tid)) (arg : Option Nat) :
    (f.map w).tidCommand usage c arg = f.res (w.tidCommand usage c arg) := by
  cases arg with
  | none => simp [World.tidCommand, res]
  | some tid => exact hc tid

end LogBlind

/-! ### The receiving side -/

namespace RecvBlind

open World

variable (f : RecvBlind) (w : World)

@[simp] theorem fopenWrite (path : Bytes) :
    (f.map w).fopenWrite path = f.map (w.fopenWrite path) := by
  simp [World.fopenWrite]

@[simp] theorem fwrite (path : Bytes) (offset : Nat) (data : Bytes) :
    (f.map w).fwrite path offset data = f.map (w.fwrite path offset data) := by
  simp [World.fwrite]

@[simp] theorem fcloseWrite (path : Bytes) (loss : Option Bytes) :
    (f.map w).fcloseWrite path loss = f.map (w.fcloseWrite path loss) := by
  cases loss <;> simp [World.fcloseWrite]

@[simp] theorem remove (path : Bytes) (removeOk : Bool) :
    (f.map w).remove path removeOk = f.map (w.remove path removeOk) := by
  cases removeOk <;> simp [World.remove]

@[simp] theorem recvTaskFind (tid : Nat) : (f.map w).recvTaskFind tid = w.recvTaskFind tid := by
  simp [World.recvTaskFind]

@[simp] theorem recvTaskActive : (f.map w).recvTaskActive = w.recvTaskActive := by
  simp [World.recvTaskActive]

@[simp] theorem recvTaskSlot : (f.map w).recvTaskSlot = w.recvTaskSlot := by
  simp [World.recvTaskSlot]

@[simp] theorem recvInitBest : (f.map w).recvInitBest = w.recvInitBest := by
  simp [World.recvInitBest]

@[simp] theorem recvNameTaken : (f.map w).recvNameTaken = w.recvNameTaken := by
  funext name
  simp [World.recvNameTaken, filePathExists]

@[simp] theorem discardFile (io : Io) (t : RecvTask) :
    (f.map w).discardFile io t = f.map (w.discardFile io t) := by
  unfold World.discardFile
  cases t.fp <;> dsimp only <;> split_ifs
  · rfl
  · split <;> simp
  · simp
  · split <;> simp

@[simp] theorem freeBitmap (t : RecvTask) :
    (f.map w).freeBitmap t = f.map (w.freeBitmap t) := by
  unfold World.freeBitmap
  cases t.bitmap <;> simp

@[simp] theorem recvTaskClear (io : Io) (i : Slot) :
    (f.map w).recvTaskClear io i = f.map (w.recvTaskClear io i) := by
  simp [World.recvTaskClear]

@[simp] theorem recvTaskFinish (io : Io) (i : Slot) :
    (f.map w).recvTaskFinish io i = f.map (w.recvTaskFinish io i) := by
  unfold World.recvTaskFinish
  simp only [recv, f.recv_map]
  split_ifs <;> simp

@[simp] theorem recvTaskComplete (io : Io) (tid : Nat) :
    (f.map w).recvTaskComplete io tid = f.map (w.recvTaskComplete io tid) := by
  unfold World.recvTaskComplete
  rw [f.recvTaskFind]
  cases w.recvTaskFind tid with
  | none => rfl
  | some i =>
    simp only [recv, f.recv_map]
    split_ifs <;> simp

@[simp] theorem recvTaskAbort (io : Io) (i : Slot) (why : Bytes) :
    (f.map w).recvTaskAbort io i why = f.map (w.recvTaskAbort io i why) := by
  simp [World.recvTaskAbort]

@[simp] theorem recvTaskReject (io : Io) (i : Slot) (why : Bytes) :
    (f.map w).recvTaskReject io i why = f.map (w.recvTaskReject io i why) := by
  simp [World.recvTaskReject]

@[simp] theorem recvAnnounceIncoming (io : Io) (tid : Nat) :
    (f.map w).recvAnnounceIncoming io tid = f.map (w.recvAnnounceIncoming io tid) := by
  unfold World.recvAnnounceIncoming
  rw [f.recvTaskSlot]
  cases w.recvTaskSlot with
  | none => simp
  | some i =>
    show ((f.map w).setRecv i _).numbered = f.map (w.setRecv i _).numbered
    simp

@[simp] theorem recvFillInit (fields : InitFields) :
    (f.map w).recvFillInit fields = f.map (w.recvFillInit fields) := by
  unfold World.recvFillInit
  rw [f.recvInitBest]
  cases w.recvInitBest <;> simp

@[simp] theorem recvChunk (io : Io) (tid offset : Nat) (data : Bytes) :
    (f.map w).recvChunk io tid offset data = f.map (w.recvChunk io tid offset data) := by
  unfold World.recvChunk
  rw [f.recvTaskFind]
  cases w.recvTaskFind tid with
  | none => rfl
  | some i =>
    simp only [recv, f.recv_map]
    cases (w.tasks.recv i).fp with
    | none => rfl
    | some h =>
      dsimp only
      split_ifs <;> simp

@[simp] theorem acceptInto (io : Io) (tid : Nat) (i : Slot) (saveName : Bytes) :
    (f.map w).acceptInto io tid i saveName = f.res (w.acceptInto io tid i saveName) := by
  unfold World.acceptInto
  simp only [recv, f.recv_map]
  by_cases hmkdir : io.mkdirOk = true
  swap
  · simp [hmkdir, LogBlind.res]
  by_cases hmalloc : io.mallocOk = true
  swap
  · simp [hmkdir, hmalloc, LogBlind.res]
  simp only [hmkdir, hmalloc, not_true_eq_false, if_false]
  cases fileJoinPath fileDownloadDir saveName 512 with
  | none => simp [LogBlind.res]
  | some path =>
    by_cases hfopen : io.fopenOk = true
    swap
    · simp [hfopen, LogBlind.res]
    cases io.sendOk <;> simp [hfopen, LogBlind.res, sendTid_eq]

@[simp] theorem acceptTid (io : Io) (tid : Nat) :
    (f.map w).acceptTid io tid = f.res (w.acceptTid io tid) := by
  unfold World.acceptTid
  rw [f.recvTaskFind, f.recvTaskActive, f.recvNameTaken]
  cases w.recvTaskFind tid with
  | none => simp [LogBlind.res]
  | some i =>
    simp only [recv, f.recv_map]
    by_cases hopen : (w.tasks.recv i).fp.isSome = true
    · simp [hopen, LogBlind.res]
    by_cases hactive : w.recvTaskActive.isSome = true
    · simp [hopen, hactive, LogBlind.res]
    by_cases hinited : (w.tasks.recv i).inited = true
    swap
    · simp [hopen, hactive, hinited, LogBlind.res]
    by_cases hsize : (w.tasks.recv i).size = 0
    · simp [hopen, hactive, hinited, hsize, LogBlind.res]
    simp only [hopen, hactive, hinited, hsize, not_true_eq_false, if_false, Bool.false_eq_true]
    cases fileBasenameSanitize (w.tasks.recv i).filename maxFilenameLen with
    | none => simp [LogBlind.res]
    | some base =>
      dsimp only
      cases fileUniqueName base w.recvNameTaken maxFilenameLen with
      | none => simp [LogBlind.res]
      | some saveName => simp

@[simp] theorem rejectTid (io : Io) (tid : Nat) :
    (f.map w).rejectTid io tid = f.res (w.rejectTid io tid) := by
  unfold World.rejectTid
  rw [f.recvTaskFind]
  cases w.recvTaskFind tid with
  | none => simp [LogBlind.res]
  | some i =>
    simp only [recv, f.recv_map]
    by_cases hopen : (w.tasks.recv i).fp.isSome = true
    · simp [hopen, LogBlind.res]
    cases io.sendOk <;> simp [hopen, LogBlind.res, sendTid_eq]

theorem fileCmdAccept (io : Io) (line : Bytes) :
    (f.map w).fileCmdAccept io line = f.res (w.fileCmdAccept io line) :=
  f.tidCommand w (utf8 "用法: /accept <tid>") (·.acceptTid io) (f.acceptTid w io)
    (commandsParseTidArg (line.drop 7))

theorem fileCmdReject (io : Io) (line : Bytes) :
    (f.map w).fileCmdReject io line = f.res (w.fileCmdReject io line) :=
  f.tidCommand w (utf8 "用法: /reject <tid>") (·.rejectTid io) (f.rejectTid w io)
    (commandsParseTidArg (line.drop 7))

@[simp] theorem clearActive (io : Io) : (f.map w).clearActive io = f.map (w.clearActive io) := by
  unfold World.clearActive
  rw [f.recvTaskActive]
  cases w.recvTaskActive <;> simp

theorem resetRecv (io : Slot → Io) (i : Slot) :
    World.resetRecv io (f.map w) i = f.map (World.resetRecv io w i) := by
  unfold World.resetRecv
  simp only [recv, f.recv_map]
  split_ifs <;> simp

theorem resetRecv_slots (io : Slot → Io) (slots : List Slot) :
    slots.foldl (World.resetRecv io) (f.map w) = f.map (slots.foldl (World.resetRecv io) w) := by
  induction slots generalizing w with
  | nil => rfl
  | cons i slots ih => rw [List.foldl_cons, List.foldl_cons, f.resetRecv, ih]

end RecvBlind

/-! ### The sending side -/

namespace SendBlind

open World

variable (f : SendBlind) (w : World)

@[simp] theorem sendTaskClear : (f.map w).sendTaskClear = f.map w.sendTaskClear := by
  unfold World.sendTaskClear fcloseSend
  simp only [send, f.send_map]
  cases w.tasks.send.fp <;> simp

@[simp] theorem sendTaskMatches (tid : Nat) :
    (f.map w).sendTaskMatches tid = w.sendTaskMatches tid := by
  simp [World.sendTaskMatches]

@[simp] theorem sendInit (sendOk : Bool) (target filename : Bytes) (size : Nat) :
    (f.map w).sendInit sendOk target filename size =
      f.res (w.sendInit sendOk target filename size) := by
  unfold World.sendInit
  dsimp only
  cases protocolBuildText3 msgFileInit target filename (decimal size)
      (protoHeaderSize + maxUsernameLen + maxFilenameLen + 32) with
  | none => simp [LogBlind.res]
  | some frame => cases sendOk <;> simp [LogBlind.res, World.connSendAll]

@[simp] theorem fileCmdSendfile (io : SendfileIo) (line : Bytes) :
    (f.map w).fileCmdSendfile io line = f.res (w.fileCmdSendfile io line) := by
  unfold World.fileCmdSendfile
  cases commandsParseSendfile line maxUsernameLen maxFilenameLen with
  | none => simp [LogBlind.res]
  | some args =>
    simp only [send, f.send_map]
    split_ifs <;> simp [LogBlind.res]

@[simp] theorem accepted (tid : Nat) : (f.map w).accepted tid = f.map (w.accepted tid) := by
  unfold World.accepted
  rw [f.sendTaskMatches, send, f.send_map]
  split_ifs <;> simp

@[simp] theorem rejected (tid : Nat) : (f.map w).rejected tid = f.map (w.rejected tid) := by
  unfold World.rejected
  rw [f.sendTaskMatches]
  split_ifs <;> simp

theorem showProgress : (f.map w).showProgress = f.map w.showProgress := by
  unfold World.showProgress
  simp only [send, f.send_map]
  split_ifs <;> simp

theorem tickChunk (io : TickIo) (i : Nat) :
    (f.map w).tickChunk io i = (f.map (w.tickChunk io i).1, (w.tickChunk io i).2) := by
  unfold World.tickChunk
  simp only [send, f.send_map]
  cases fileChunkPlan w.tasks.send.size fileChunkDataMax
      (w.tasks.send.sent / fileChunkDataMax) with
  | none => simp
  | some plan =>
    obtain ⟨offset, len⟩ := plan
    dsimp only
    generalize ((io.fread _ len).take len) = data
    by_cases hread : data.length ≠ len
    · simp [hread, sendTid_eq]
    rw [if_neg hread, if_neg hread]
    cases protocolBuildChunk w.tasks.send.tid offset data
        (protoHeaderSize + 12 + fileChunkDataMax) with
    | none => simp
    | some frame => cases io.sendOk i <;> simp [World.connSendAll, ← f.showProgress]

theorem tickEnd : (f.map w).tickEnd = f.map w.tickEnd := by
  unfold World.tickEnd
  simp only [send, f.send_map]
  split_ifs <;> simp

theorem tickLoop (io : TickIo) (fuel i : Nat) :
    World.tickLoop io fuel i (f.map w) = f.res (World.tickLoop io fuel i w) := by
  induction fuel generalizing i w with
  | zero => rw [World.tickLoop, World.tickLoop, f.tickEnd, LogBlind.res]
  | succ fuel ih =>
    rw [World.tickLoop, World.tickLoop, f.tickChunk, send, f.send_map]
    by_cases hmore : w.send.sent < w.send.size
    · rw [if_pos hmore, if_pos hmore]
      generalize w.tickChunk io i = r
      obtain ⟨w', status⟩ := r
      cases status with
      | none => exact ih w' (i + 1)
      | some status => rfl
    · rw [if_neg hmore, if_neg hmore, f.tickEnd, LogBlind.res]

@[simp] theorem fileSendTick (io : TickIo) :
    (f.map w).fileSendTick io = f.res (w.fileSendTick io) := by
  unfold World.fileSendTick
  simp only [send, f.send_map]
  by_cases hbusy : w.tasks.send.busy = true
  swap
  · simp [hbusy, LogBlind.res]
  by_cases hidle : w.tasks.send.state ≠ .active ∧ w.tasks.send.state ≠ .done
  · simp [hbusy, hidle, LogBlind.res]
  by_cases hdone : w.tasks.send.state = .done
  · cases io.sendOk 0 <;> simp [hbusy, hdone, sendTid_eq, LogBlind.res]
  · simp only [hbusy, hidle, hdone, not_true_eq_false, if_false]
    exact f.tickLoop w io fileChunksPerRound 0

end SendBlind

/-! ### Earlier effects -/

namespace World

/-- The same tasks and files, with earlier effects in front of the log. -/
def behind (w : World) (earlier : List Effect) : World := { w with log := earlier ++ w.log }

variable (w : World) (l : List Effect)

@[simp] theorem log_behind : (w.behind l).log = l ++ w.log := rfl

theorem emit_behind (e : Effect) : (w.behind l).emit e = (w.emit e).behind l := by
  simp [emit, behind]

end World

/-- The receiving side does not notice earlier effects. -/
def RecvBlind.behind (l : List Effect) : RecvBlind where
  map w := w.behind l
  emit_map w e := w.emit_behind l e
  recv_map _ := rfl
  disk_map _ := rfl
  setDisk_map _ _ _ := rfl
  setRecv_map _ _ _ := rfl
  recvSeq_map _ := rfl
  numbered_map _ := rfl

/-- Neither does the sending side. -/
def SendBlind.behind (l : List Effect) : SendBlind where
  map w := w.behind l
  emit_map w e := w.emit_behind l e
  send_map _ := rfl
  setSend_map _ _ := rfl

namespace World

variable (w : World) (l : List Effect)

/-- The result of a command behind earlier effects. -/
def resBehind (res : World × Status) (l : List Effect) : World × Status := (res.1.behind l, res.2)

/-! ### Calls that concern both sides -/

@[simp] theorem print_behind (text : Bytes) :
    (w.behind l).print text = (w.print text).behind l := emit_behind w l _

@[simp] theorem sendTid_behind (msgType : UInt8) (tid : Nat) (sendOk : Bool) :
    (w.behind l).sendTid msgType tid sendOk =
      ((w.sendTid msgType tid sendOk).1.behind l, (w.sendTid msgType tid sendOk).2) :=
  (SendBlind.behind l).sendTid w msgType tid sendOk

@[simp] theorem sendTaskClear_behind : (w.behind l).sendTaskClear = w.sendTaskClear.behind l :=
  (SendBlind.behind l).sendTaskClear w

@[simp] theorem recvTaskClear_behind (io : Io) (i : Slot) :
    (w.behind l).recvTaskClear io i = (w.recvTaskClear io i).behind l :=
  (RecvBlind.behind l).recvTaskClear w io i

@[simp] theorem recvTaskComplete_behind (io : Io) (tid : Nat) :
    (w.behind l).recvTaskComplete io tid = (w.recvTaskComplete io tid).behind l :=
  (RecvBlind.behind l).recvTaskComplete w io tid

@[simp] theorem accepted_behind (tid : Nat) :
    (w.behind l).accepted tid = (w.accepted tid).behind l := (SendBlind.behind l).accepted w tid

@[simp] theorem rejected_behind (tid : Nat) :
    (w.behind l).rejected tid = (w.rejected tid).behind l := (SendBlind.behind l).rejected w tid

@[simp] theorem cancelTid_behind (io : Io) (tid : Nat) :
    (w.behind l).cancelTid io tid = resBehind (w.cancelTid io tid) l := by
  unfold cancelTid
  rw [show (w.behind l).recvTaskFind tid = w.recvTaskFind tid from rfl,
    show (w.behind l).sendTaskMatches tid = w.sendTaskMatches tid from rfl]
  by_cases hmatch : w.sendTaskMatches tid = true
  · cases io.sendOk <;> simp [hmatch, resBehind, sendTid_eq, emit_behind]
  · cases w.recvTaskFind tid with
    | none => simp [hmatch, resBehind, noSuchTransfer]
    | some i => cases io.sendOk <;> simp [hmatch, resBehind, sendTid_eq, emit_behind]

@[simp] theorem cancelled_behind (io : Io) (tid : Nat) :
    (w.behind l).cancelled io tid = (w.cancelled io tid).behind l := by
  unfold cancelled
  rw [show (w.behind l).recvTaskFind tid = w.recvTaskFind tid from rfl,
    show (w.behind l).sendTaskMatches tid = w.sendTaskMatches tid from rfl]
  by_cases hmatch : w.sendTaskMatches tid = true
  · simp [hmatch]
  · cases w.recvTaskFind tid <;> simp [hmatch]

theorem announced_behind (io : Io) (kind : FileAnnKind) (tid : Nat) :
    (w.behind l).announced io kind tid = (w.announced io kind tid).behind l := by
  cases kind with
  | sendPending =>
    show ite (w.send.busy ∧ w.send.state = .pendingTid) _ _ = behind (ite _ _ _) l
    rw [apply_ite (behind · l)]
    rfl
  | accepted => exact accepted_behind w l tid
  | rejected => exact rejected_behind w l tid
  | cancelled => exact cancelled_behind w l io tid
  | cancelledDisc => exact cancelled_behind w l io tid
  | recvPending => exact (RecvBlind.behind l).recvAnnounceIncoming w io tid
  | complete =>
    show ite (w.sendTaskMatches tid ∧ w.send.state = .waitComplete) _ _ = behind (ite _ _ _) l
    rw [apply_ite (behind · l), sendTaskClear_behind, recvTaskComplete_behind]

@[simp] theorem fileHandleAnnouncement_behind (io : Io) (text : Bytes) :
    (w.behind l).fileHandleAnnouncement io text = (w.fileHandleAnnouncement io text).behind l := by
  unfold fileHandleAnnouncement
  cases fileParseAnnouncement text with
  | none => rfl
  | some ann => exact announced_behind w l io ann.1 ann.2

theorem controlFrame_behind (io : Io) (type : UInt8) (tid : Nat) :
    (w.behind l).controlFrame io type tid = (w.controlFrame io type tid).behind l := by
  simp only [controlFrame, accepted_behind, rejected_behind, cancelled_behind,
    recvTaskComplete_behind, apply_ite (behind · l)]

/-- **Frames.** -/
theorem fileHandleFrame_behind (io : Io) (type : UInt8) (payload : Ptr) (plen : Nat) :
    (w.behind l).fileHandleFrame io type payload plen =
      (w.fileHandleFrame io type payload plen).map (behind · l) := by
  unfold fileHandleFrame
  split_ifs
  · cases read payload 0 4 with
    | none => rfl
    | some tid => exact congrArg some (controlFrame_behind w l io type _)
  · unfold recvHandleInit
    cases fileParseInitPayload payload plen maxUsernameLen maxFilenameLen with
    | none => rfl
    | some fields =>
      cases fields with
      | none => rfl
      | some f => exact congrArg some ((RecvBlind.behind l).recvFillInit w f)
  · unfold recvHandleChunk
    split_ifs
    · rfl
    · cases read payload 0 4 <;> cases read payload 4 8 <;> cases read payload 12 (plen - 12) <;>
        simp
      exact (RecvBlind.behind l).recvChunk w io _ _ _
  · rfl

@[simp] theorem fileFrame_behind (io : Io) (type : UInt8) (payload : Bytes) :
    (w.behind l).fileFrame io type payload = (w.fileFrame io type payload).behind l := by
  rw [fileFrame, fileFrame, fileHandleFrame_behind]
  cases w.fileHandleFrame io type (span payload []) payload.length <;> rfl

@[simp] theorem fileHandleError_behind (io : Io) (code : Nat) :
    (w.behind l).fileHandleError io code = (w.fileHandleError io code).behind l := by
  rw [fileHandleError, fileHandleError]
  by_cases huser : code = errNoSuchUser
  · rw [if_pos huser, if_pos huser]
    show ite (w.send.busy ∧ w.send.state = .pendingTid) _ _ = behind (ite _ _ _) l
    rw [apply_ite (behind · l), sendTaskClear_behind]
  rw [if_neg huser, if_neg huser]
  by_cases hstate : code = errTransferState
  · rw [if_pos hstate, if_pos hstate]
    show clearActive (ite (w.send.busy = true) _ _) io = behind (clearActive (ite _ _ _) io) l
    refine Eq.trans ?_ ((RecvBlind.behind l).clearActive _ io)
    rw [sendTaskClear_behind]
    exact congrArg (clearActive · io) (apply_ite (behind · l) _ _ _).symm
  · rw [if_neg hstate, if_neg hstate]

@[simp] theorem fileResetAll_behind (io : Slot → Io) :
    (w.behind l).fileResetAll io = (w.fileResetAll io).behind l := by
  have hslots := (RecvBlind.behind l).resetRecv_slots
    (if w.send.busy then w.sendTaskClear else w) io (List.finRange fileMaxRecvPending)
  refine Eq.trans ?_ hslots
  rw [fileResetAll, sendTaskClear_behind]
  refine congrArg (List.foldl (resetRecv io) · _) ?_
  exact (apply_ite (behind · l) _ _ _).symm

end World

/-! ### Calls and runs -/

open World

/-- **Step lemma.** A call does behind earlier effects what it does without them. -/
theorem fileStep_behind (w : World) (l : List Effect) (e : FileEvent) :
    fileStep (w.behind l) e = (fileStep w e).behind l := by
  cases e with
  | sendfile line io => exact congrArg Prod.fst ((SendBlind.behind l).fileCmdSendfile w io line)
  | accept line io => exact congrArg Prod.fst ((RecvBlind.behind l).fileCmdAccept w io line)
  | reject line io => exact congrArg Prod.fst ((RecvBlind.behind l).fileCmdReject w io line)
  | cancel line io =>
    exact congrArg Prod.fst ((SendBlind.behind l).tidCommand w (utf8 "用法: /cancel <tid>")
      (·.cancelTid io) (cancelTid_behind w l io) (commandsParseTidArg (line.drop 7)))
  | announcement text io => exact fileHandleAnnouncement_behind w l io text
  | frame type payload io => exact fileFrame_behind w l io type payload
  | error code io => exact fileHandleError_behind w l io code
  | tick io => exact congrArg Prod.fst ((SendBlind.behind l).fileSendTick w io)
  | reset io => exact fileResetAll_behind w l io

/-- **Run lemma.** -/
theorem fileRun_behind (w : World) (l : List Effect) (events : List FileEvent) :
    fileRun (w.behind l) events = (fileRun w events).behind l := by
  induction events generalizing w with
  | nil => rfl
  | cons e events ih => rw [fileRun, List.foldl_cons, fileStep_behind]; exact ih (fileStep w e)

/-- The tasks and the files decide what a run does; its effects follow the earlier ones. -/
theorem fileRun_eq_behind (w : World) (events : List FileEvent) :
    fileRun w events = (fileRun { w with log := [] } events).behind w.log := by
  rw [← fileRun_behind]
  congr 1
  simp [behind]

end TCPClient
