import TCPClient.Protocol
import TCPClient.Naming
import TCPClient.Lib.Cover
import Mathlib.Logic.Function.Basic

namespace TCPClient

open Octets Cover

/-!
# `file.h` — the state of the file module and what it does to the outside

The single send task, the table of receive tasks, the sequence counter, the files, and a log of
what the module did to the outside: lines shown, frames sent, files opened, written, closed and
removed, memory taken and released.  A `file_recv_task_t *` is a slot of the table.

What the outside answers to one call (whether a send, an `fopen`, an `fwrite`, … succeeds) is an
`Io`, a parameter of each operation.  A write goes to the file at once; what a failing `fclose`
leaves of a file is part of the `Io`.
-/

abbrev fileMaxRecvPending : Nat := 8
def fileChunksPerRound : Nat := 2
def fileProgressInterval : Nat := 1024 * 1024
def fileDownloadDir : Bytes := utf8 "downloads"

/-- `file_send_state_t`. -/
inductive SendState where
  | none
  | pendingTid
  | pending
  | active
  | done
  | waitComplete
  deriving DecidableEq, Repr

/-- A `FILE *`: what was opened, and the cursor. -/
structure FileHandle where
  path : Bytes
  pos : Nat
  deriving DecidableEq, Repr

/-- `file_send_task_t`; `tid` 0 stands for "not associated yet". -/
structure SendTask where
  busy : Bool
  tid : Nat
  target : Bytes
  filename : Bytes
  size : Nat
  sent : Nat
  nextProgressMark : Nat
  fp : Option FileHandle
  state : SendState
  deriving DecidableEq, Repr

/-- `memset(&g_send, 0, sizeof(g_send))`. -/
def SendTask.zero : SendTask := ⟨false, 0, [], [], 0, 0, 0, .none, .none⟩

theorem SendTask.not_busy_zero : SendTask.zero.busy ≠ true := Bool.false_ne_true

/-- `file_recv_task_t`. -/
structure RecvTask where
  busy : Bool
  inited : Bool
  seq : Nat
  tid : Nat
  sender : Bytes
  filename : Bytes
  saveName : Bytes
  size : Nat
  received : Nat
  bitmap : Option Bytes
  bitmapLen : Nat
  fp : Option FileHandle
  deriving DecidableEq, Repr

/-- `memset(t, 0, sizeof(*t))`. -/
def RecvTask.zero : RecvTask := ⟨false, false, 0, 0, [], [], [], 0, 0, .none, 0, .none⟩

/-- A pointer into `g_recv`. -/
abbrev Slot := Fin fileMaxRecvPending

/-- What the module does to the outside.  A block of memory goes by its length; the module asks for
    memory in one place only, the bitmap of a receive task. -/
inductive Effect where
  | print (text : Bytes)
  | incoming (text : Bytes)
  | send (frame : Bytes) (ok : Bool)
  | fopenRead (path : Bytes)
  | fopen (path : Bytes)
  | fwrite (path : Bytes) (offset : Nat) (data : Bytes)
  | fclose (path : Bytes) (ok : Bool)
  | remove (path : Bytes) (ok : Bool)
  | malloc (len : Nat) (ok : Bool)
  | free (len : Nat)
  deriving DecidableEq, Repr

/-- The writes a log contains for a path since the file was last created. -/
def fileWrites (path : Bytes) (log : List Effect) : List Write :=
  log.foldl
    (fun ws e =>
      match e with
      | .fopen p => if p = path then [] else ws
      | .fwrite p offset data => if p = path then ws ++ [(offset, data)] else ws
      | _ => ws)
    []

/-- What the outside answers to one operation of the receiving side.  `fwriteShort` is the
    number of bytes a failing `fwrite` took, `fcloseLoss` what a failing `fclose` left of the
    file. -/
structure Io where
  sendOk : Bool
  mkdirOk : Bool
  mallocOk : Bool
  fopenOk : Bool
  fseekOk : Bool
  fwriteShort : Option Nat
  fcloseLoss : Option Bytes
  removeOk : Bool

/-- Everything succeeds. -/
def Io.ok : Io := ⟨true, true, true, true, true, none, none, true⟩

/-- Every file operation on an open file succeeds. -/
structure Io.FilesWork (io : Io) : Prop where
  fseek : io.fseekOk = true
  fwrite : io.fwriteShort = none
  fclose : io.fcloseLoss = none
  remove : io.removeOk = true

/-- What `fwrite` takes of its data. -/
def Io.fwritten (io : Io) (data : Bytes) : Bytes :=
  match io.fwriteShort with
  | none => data
  | some n => data.take n

/-- A write of full length took all of its data. -/
theorem Io.fwritten_eq {io : Io} {data : Bytes} (h : (io.fwritten data).length = data.length) :
    io.fwritten data = data := by
  unfold fwritten at h ⊢
  cases hn : io.fwriteShort with
  | none => rfl
  | some n =>
    rw [hn] at h
    exact List.take_of_length_le (by simpa using h)

/-- `g_send`, `g_recv` and `g_recv_seq`. -/
structure Tasks where
  send : SendTask
  recv : Slot → RecvTask
  recvSeq : Nat

/-- The tasks, the files, and the log (oldest effect first). -/
structure World where
  tasks : Tasks
  disk : Bytes → Option Bytes
  log : List Effect

/-- The module before any event, over some files. -/
def World.init (disk : Bytes → Option Bytes) : World :=
  ⟨⟨SendTask.zero, fun _ => RecvTask.zero, 0⟩, disk, []⟩

/-- What a command reports to the event loop: `0`, or `-1` for a lost connection. -/
inductive Status where
  | ok
  | lost
  deriving DecidableEq, Repr

namespace World

@[simp] abbrev send (w : World) : SendTask := w.tasks.send
@[simp] abbrev recv (w : World) : Slot → RecvTask := w.tasks.recv
@[simp] abbrev recvSeq (w : World) : Nat := w.tasks.recvSeq

def setSend (w : World) (t : SendTask) : World := { w with tasks := { w.tasks with send := t } }

def setRecv (w : World) (i : Slot) (t : RecvTask) : World :=
  { w with tasks := { w.tasks with recv := Function.update w.tasks.recv i t } }

def setDisk (w : World) (path : Bytes) (content : Option Bytes) : World :=
  { w with disk := Function.update w.disk path content }

def emit (w : World) (e : Effect) : World := { w with log := w.log ++ [e] }

/-- The writes made to a file since it was created. -/
def fileWrites (w : World) (path : Bytes) : List Write := TCPClient.fileWrites path w.log

/-! ### Effects -/

/-- `ui_print`. -/
def print (w : World) (text : Bytes) : World := w.emit (.print text)

/-- `ui_display_incoming`. -/
def displayIncoming (w : World) (text : Bytes) : World := w.emit (.incoming text)

/-- `conn_send_all`: the frame and whether it went out. -/
def connSendAll (w : World) (frame : Bytes) (sendOk : Bool) : World × Bool :=
  (w.emit (.send frame sendOk), sendOk)

/-- `protocol_build_tid` into its stack buffer, then `conn_send_all`. -/
def sendTid (w : World) (msgType : UInt8) (tid : Nat) (sendOk : Bool) : World × Bool :=
  match protocolBuildTid msgType tid (protoHeaderSize + 4) with
  | none => (w, false)
  | some frame => w.connSendAll frame sendOk

/-- `fopen(path, "wb")` that succeeds: the file is created or emptied. -/
def fopenWrite (w : World) (path : Bytes) : World :=
  (w.setDisk path (some [])).emit (.fopen path)

/-- `fwrite` at an offset of an open file. -/
def fwrite (w : World) (path : Bytes) (offset : Nat) (data : Bytes) : World :=
  (w.setDisk path ((w.disk path).map fun c => writeAt c offset data)).emit
    (.fwrite path offset data)

/-- `fclose` of a file opened for writing. -/
def fcloseWrite (w : World) (path : Bytes) : Option Bytes → World
  | none => w.emit (.fclose path true)
  | some left => (w.setDisk path (some left)).emit (.fclose path false)

/-- `remove`. -/
def remove (w : World) (path : Bytes) (removeOk : Bool) : World :=
  if removeOk then (w.setDisk path none).emit (.remove path true)
  else w.emit (.remove path false)

/-- `file_path_exists`. -/
def filePathExists (w : World) (path : Bytes) : Bool := (w.disk path).isSome

/-! ### The task table -/

/-- `recv_task_find`. -/
def recvTaskFind (w : World) (tid : Nat) : Option Slot :=
  (List.finRange fileMaxRecvPending).find? fun i => (w.recv i).busy && (w.recv i).tid == tid

/-- `recv_task_active`. -/
def recvTaskActive (w : World) : Option Slot :=
  (List.finRange fileMaxRecvPending).find? fun i => (w.recv i).busy && (w.recv i).fp.isSome

/-- `recv_task_slot`. -/
def recvTaskSlot (w : World) : Option Slot :=
  (List.finRange fileMaxRecvPending).find? fun i => !(w.recv i).busy

/-- `send_task_matches`. -/
def sendTaskMatches (w : World) (tid : Nat) : Bool := w.send.busy && w.send.tid == tid

/-- The `fclose` of `send_task_clear`; the file was opened for reading. -/
def fcloseSend (w : World) : World :=
  match w.send.fp with
  | none => w
  | some h => w.emit (.fclose h.path true)

/-- `send_task_clear`. -/
def sendTaskClear (w : World) : World := w.fcloseSend.setSend SendTask.zero

/-- The outside part of `recv_task_clear`: close the file, then remove the partial file unless
    its name was blanked. -/
def discardFile (w : World) (io : Io) (t : RecvTask) : World :=
  let w := match t.fp with
    | none => w
    | some h => w.fcloseWrite h.path io.fcloseLoss
  -- no name: a pending task, or a complete file that is to be kept
  if t.saveName = [] then w
  else
    match fileJoinPath fileDownloadDir t.saveName 512 with
    | none => w
    | some path => w.remove path io.removeOk

/-- `free(t->bitmap)`; of a null pointer it does nothing. -/
def freeBitmap (w : World) (t : RecvTask) : World :=
  match t.bitmap with
  | none => w
  | some bitmap => w.emit (.free bitmap.length)

/-- `recv_task_clear`. -/
def recvTaskClear (w : World) (io : Io) (i : Slot) : World :=
  ((w.discardFile io (w.recv i)).freeBitmap (w.recv i)).setRecv i RecvTask.zero

/-! ### What the operations leave alone -/

@[simp] theorem tasks_emit (w : World) (e : Effect) : (w.emit e).tasks = w.tasks := rfl

@[simp] theorem tasks_print (w : World) (text : Bytes) : (w.print text).tasks = w.tasks := rfl

@[simp] theorem tasks_displayIncoming (w : World) (text : Bytes) :
    (w.displayIncoming text).tasks = w.tasks := rfl

@[simp] theorem tasks_setDisk (w : World) (path : Bytes) (content : Option Bytes) :
    (w.setDisk path content).tasks = w.tasks := rfl

@[simp] theorem tasks_fopenWrite (w : World) (path : Bytes) :
    (w.fopenWrite path).tasks = w.tasks := rfl

@[simp] theorem tasks_fwrite (w : World) (path : Bytes) (offset : Nat) (data : Bytes) :
    (w.fwrite path offset data).tasks = w.tasks := rfl

@[simp] theorem tasks_fcloseWrite (w : World) (path : Bytes) (loss : Option Bytes) :
    (w.fcloseWrite path loss).tasks = w.tasks := by
  cases loss <;> rfl

@[simp] theorem tasks_remove (w : World) (path : Bytes) (removeOk : Bool) :
    (w.remove path removeOk).tasks = w.tasks := by
  cases removeOk <;> rfl

@[simp] theorem tasks_fcloseSend (w : World) : w.fcloseSend.tasks = w.tasks := by
  unfold fcloseSend
  split <;> rfl

@[simp] theorem tasks_discardFile (w : World) (io : Io) (t : RecvTask) :
    (w.discardFile io t).tasks = w.tasks := by
  unfold discardFile
  cases t.fp <;> dsimp only <;> split_ifs
  · rfl
  · split <;> simp
  · simp
  · split <;> simp

@[simp] theorem tasks_freeBitmap (w : World) (t : RecvTask) :
    (w.freeBitmap t).tasks = w.tasks := by
  unfold freeBitmap
  split <;> rfl

/-- A control frame always goes into its buffer, so one send attempt is made. -/
theorem sendTid_eq (w : World) (msgType : UInt8) (tid : Nat) (sendOk : Bool) :
    w.sendTid msgType tid sendOk =
      (w.emit (.send (tidFrame msgType tid).encode sendOk), sendOk) := by
  rw [sendTid, protocolBuildTid_eq]
  rfl

@[simp] theorem tasks_sendTid (w : World) (msgType : UInt8) (tid : Nat) (sendOk : Bool) :
    (w.sendTid msgType tid sendOk).1.tasks = w.tasks := by
  rw [sendTid_eq]
  rfl

@[simp] theorem send_setSend (w : World) (t : SendTask) : (w.setSend t).tasks.send = t := rfl

@[simp] theorem recv_setSend (w : World) (t : SendTask) :
    (w.setSend t).tasks.recv = w.tasks.recv := rfl

@[simp] theorem recvSeq_setSend (w : World) (t : SendTask) :
    (w.setSend t).tasks.recvSeq = w.tasks.recvSeq := rfl

@[simp] theorem send_setRecv (w : World) (i : Slot) (t : RecvTask) :
    (w.setRecv i t).tasks.send = w.tasks.send := rfl

@[simp] theorem recv_setRecv (w : World) (i : Slot) (t : RecvTask) :
    (w.setRecv i t).tasks.recv = Function.update w.tasks.recv i t := rfl

@[simp] theorem recvSeq_setRecv (w : World) (i : Slot) (t : RecvTask) :
    (w.setRecv i t).tasks.recvSeq = w.tasks.recvSeq := rfl

@[simp] theorem setRecv_self (w : World) (i : Slot) : w.setRecv i (w.recv i) = w := by
  simp [setRecv, recv]

/-- Clearing the send task changes nothing else. -/
@[simp] theorem tasks_sendTaskClear (w : World) :
    w.sendTaskClear.tasks = { w.tasks with send := SendTask.zero } := by
  simp [sendTaskClear, setSend]

/-- Clearing a receive task changes no other task. -/
@[simp] theorem tasks_recvTaskClear (w : World) (io : Io) (i : Slot) :
    (w.recvTaskClear io i).tasks =
      { w.tasks with recv := Function.update w.tasks.recv i RecvTask.zero } := by
  simp [recvTaskClear, setRecv]

@[simp] theorem disk_emit (w : World) (e : Effect) : (w.emit e).disk = w.disk := rfl

@[simp] theorem disk_print (w : World) (text : Bytes) : (w.print text).disk = w.disk := rfl

@[simp] theorem disk_setSend (w : World) (t : SendTask) : (w.setSend t).disk = w.disk := rfl

@[simp] theorem disk_setRecv (w : World) (i : Slot) (t : RecvTask) :
    (w.setRecv i t).disk = w.disk := rfl

@[simp] theorem disk_sendTid (w : World) (msgType : UInt8) (tid : Nat) (sendOk : Bool) :
    (w.sendTid msgType tid sendOk).1.disk = w.disk := by
  rw [sendTid_eq]
  rfl

@[simp] theorem disk_sendTaskClear (w : World) : w.sendTaskClear.disk = w.disk := by
  unfold sendTaskClear fcloseSend
  cases w.send.fp <;> rfl

@[simp] theorem disk_freeBitmap (w : World) (t : RecvTask) :
    (w.freeBitmap t).disk = w.disk := by
  unfold freeBitmap
  split <;> rfl

@[simp] theorem fileWrites_emit (w : World) (e : Effect) (path : Bytes) :
    (w.emit e).fileWrites path =
      match e with
      | .fopen p => if p = path then [] else w.fileWrites path
      | .fwrite p offset data =>
        if p = path then w.fileWrites path ++ [(offset, data)] else w.fileWrites path
      | _ => w.fileWrites path := by
  simp only [fileWrites, TCPClient.fileWrites, emit, List.foldl_append, List.foldl_cons,
    List.foldl_nil]

@[simp] theorem fileWrites_print (w : World) (text path : Bytes) :
    (w.print text).fileWrites path = w.fileWrites path := by
  simp [print]

@[simp] theorem fileWrites_displayIncoming (w : World) (text path : Bytes) :
    (w.displayIncoming text).fileWrites path = w.fileWrites path := by
  simp [displayIncoming]

@[simp] theorem fileWrites_setSend (w : World) (t : SendTask) (path : Bytes) :
    (w.setSend t).fileWrites path = w.fileWrites path := rfl

@[simp] theorem fileWrites_setRecv (w : World) (i : Slot) (t : RecvTask) (path : Bytes) :
    (w.setRecv i t).fileWrites path = w.fileWrites path := rfl

@[simp] theorem fileWrites_setDisk (w : World) (p : Bytes) (content : Option Bytes)
    (path : Bytes) : (w.setDisk p content).fileWrites path = w.fileWrites path := rfl

@[simp] theorem fileWrites_sendTid (w : World) (msgType : UInt8) (tid : Nat) (sendOk : Bool)
    (path : Bytes) : (w.sendTid msgType tid sendOk).1.fileWrites path = w.fileWrites path := by
  simp [sendTid_eq]

@[simp] theorem fileWrites_sendTaskClear (w : World) (path : Bytes) :
    w.sendTaskClear.fileWrites path = w.fileWrites path := by
  unfold sendTaskClear fcloseSend
  cases w.send.fp <;> simp

@[simp] theorem fileWrites_fcloseWrite (w : World) (p : Bytes) (loss : Option Bytes)
    (path : Bytes) : (w.fcloseWrite p loss).fileWrites path = w.fileWrites path := by
  cases loss <;> simp [fcloseWrite]

@[simp] theorem fileWrites_remove (w : World) (p : Bytes) (removeOk : Bool) (path : Bytes) :
    (w.remove p removeOk).fileWrites path = w.fileWrites path := by
  cases removeOk <;> simp [remove]

@[simp] theorem fileWrites_freeBitmap (w : World) (t : RecvTask) (path : Bytes) :
    (w.freeBitmap t).fileWrites path = w.fileWrites path := by
  unfold freeBitmap
  split <;> simp

@[simp] theorem fileWrites_recvTaskClear (w : World) (io : Io) (i : Slot) (path : Bytes) :
    (w.recvTaskClear io i).fileWrites path = w.fileWrites path := by
  unfold recvTaskClear discardFile
  cases (w.recv i).fp <;> dsimp only <;> split_ifs
  · simp
  · split <;> simp
  · simp
  · split <;> simp

/-- Nothing but lines shown and frames sent. -/
def Quiet (w w' : World) : Prop :=
  w'.tasks = w.tasks ∧ w'.disk = w.disk ∧ ∀ path, w'.fileWrites path = w.fileWrites path

theorem Quiet.refl (w : World) : Quiet w w := ⟨rfl, rfl, fun _ => rfl⟩

theorem Quiet.trans {w1 w2 w3 : World} (h : Quiet w1 w2) (h' : Quiet w2 w3) : Quiet w1 w3 :=
  ⟨h'.1.trans h.1, h'.2.1.trans h.2.1, fun path => (h'.2.2 path).trans (h.2.2 path)⟩

theorem quiet_print (w : World) (text : Bytes) : Quiet w (w.print text) :=
  ⟨rfl, rfl, fun path => by simp⟩

theorem quiet_sendTid (w : World) (msgType : UInt8) (tid : Nat) (sendOk : Bool) :
    Quiet w (w.sendTid msgType tid sendOk).1 :=
  ⟨by simp, by simp, fun path => by simp⟩

/-- Clearing a task without a file touches no file. -/
theorem disk_recvTaskClear_of_pending {w : World} (io : Io) {i : Slot}
    (hfp : (w.recv i).fp = none) (hname : (w.recv i).saveName = []) :
    (w.recvTaskClear io i).disk = w.disk := by
  unfold recvTaskClear discardFile
  rw [hfp, if_pos hname, disk_setRecv, disk_freeBitmap]

/-! ### Searching the table -/

theorem recvTaskFind_eq_some {w : World} {tid : Nat} {i : Slot}
    (h : w.recvTaskFind tid = some i) : (w.recv i).busy = true ∧ (w.recv i).tid = tid := by
  have := List.find?_some h
  simpa using this

theorem recvTaskActive_eq_some {w : World} {i : Slot} (h : w.recvTaskActive = some i) :
    (w.recv i).busy = true ∧ (w.recv i).fp.isSome = true := by
  have := List.find?_some h
  simpa using this

theorem recvTaskActive_eq_none {w : World} :
    w.recvTaskActive = none ↔ ∀ i, (w.recv i).busy = true → (w.recv i).fp = none := by
  simp [recvTaskActive]

theorem recvTaskSlot_eq_some {w : World} {i : Slot} (h : w.recvTaskSlot = some i) :
    (w.recv i).busy = false := by
  have := List.find?_some h
  simpa using this

/-- The search sees no more of a task than whether it is busy and its id. -/
theorem recvTaskFind_congr {w w' : World} {tid : Nat}
    (h : ∀ j, (w'.recv j).busy = (w.recv j).busy ∧ (w'.recv j).tid = (w.recv j).tid) :
    w'.recvTaskFind tid = w.recvTaskFind tid := by
  unfold recvTaskFind
  congr 1
  funext j
  rw [(h j).1, (h j).2]

theorem sendTaskMatches_iff {w : World} {tid : Nat} :
    w.sendTaskMatches tid = true ↔ w.send.busy = true ∧ w.send.tid = tid := by
  simp [sendTaskMatches]

end World
end TCPClient
