import TCPClient.FolderSpec
import TCPClient.RepInvariant

namespace TCPClient

open Octets

/-!
# What the client turns down

`AcceptEnd` lists the ways `/accept` ends, each with the tasks it leaves and everything it does to
the outside.  Two results are read off it: a file is only ever created under a single free
component of `downloads/`, and a command that is refused leaves nothing behind.  An announcement
is turned down when no slot is free, which is not quite when eight tasks are pending.
-/

/-- What an effect adds to the number of open files. -/
def Effect.handles : Effect → Int
  | .fopenRead _ | .fopen _ => 1
  | .fclose _ _ => -1
  | _ => 0

/-- The path an effect opens for writing. -/
def Effect.creates : Effect → Option Bytes
  | .fopen path => some path
  | _ => none

/-- What an effect adds to the number of blocks of `len` bytes that are allocated. -/
def Effect.blocks (len : Nat) : Effect → Int
  | .malloc n true => if n = len then 1 else 0
  | .free n => if n = len then -1 else 0
  | _ => 0

/-- Calls to `remove` and nothing else. -/
def Removals (fx : List Effect) : Prop := ∀ e ∈ fx, ∃ path ok, e = .remove path ok

namespace Removals

variable {fx : List Effect}

theorem handles (h : Removals fx) : (fx.map Effect.handles).sum = 0 := by
  apply List.sum_eq_zero
  intro n hn
  obtain ⟨e, he, rfl⟩ := List.mem_map.mp hn
  obtain ⟨path, ok, rfl⟩ := h e he
  rfl

theorem blocks (h : Removals fx) (len : Nat) : (fx.map (Effect.blocks len)).sum = 0 := by
  apply List.sum_eq_zero
  intro n hn
  obtain ⟨e, he, rfl⟩ := List.mem_map.mp hn
  obtain ⟨path, ok, rfl⟩ := h e he
  rfl

theorem creates (h : Removals fx) : fx.filterMap Effect.creates = [] := by
  apply List.filterMap_eq_nil_iff.mpr
  intro e he
  obtain ⟨path, ok, rfl⟩ := h e he
  rfl

theorem triedFrame (h : Removals fx) : fx.filterMap Effect.triedFrame = [] := by
  apply List.filterMap_eq_nil_iff.mpr
  intro e he
  obtain ⟨path, ok, rfl⟩ := h e he
  rfl

end Removals

namespace World

/-- How many files are open. -/
def openFiles (w : World) : Int := (w.log.map Effect.handles).sum

/-- How many blocks of `len` bytes are allocated. -/
def blocks (w : World) (len : Nat) : Int := (w.log.map (Effect.blocks len)).sum

/-- The paths opened for writing. -/
def created (w : World) : List Bytes := w.log.filterMap Effect.creates

variable {w w' : World} {fx : List Effect}

theorem openFiles_of_log (h : w'.log = w.log ++ fx) :
    w'.openFiles = w.openFiles + (fx.map Effect.handles).sum := by
  rw [openFiles, h, List.map_append, List.sum_append]
  rfl

theorem blocks_of_log (h : w'.log = w.log ++ fx) (len : Nat) :
    w'.blocks len = w.blocks len + (fx.map (Effect.blocks len)).sum := by
  rw [blocks, h, List.map_append, List.sum_append]
  rfl

theorem created_of_log (h : w'.log = w.log ++ fx) :
    w'.created = w.created ++ fx.filterMap Effect.creates := by
  rw [created, h, List.filterMap_append]
  rfl

theorem log_print (w : World) (text : Bytes) : (w.print text).log = w.log ++ [.print text] := rfl

theorem framesTried_of_log (h : w'.log = w.log ++ fx) :
    w'.framesTried = w.framesTried ++ fx.filterMap Effect.triedFrame := by
  rw [framesTried, h, List.filterMap_append]
  rfl

/-- Among other effects, removals count for nothing. -/
structure Logs (w w' : World) (fx : List Effect) : Prop where
  openFiles : w'.openFiles = w.openFiles + (fx.map Effect.handles).sum
  blocks : ∀ len, w'.blocks len = w.blocks len + (fx.map (Effect.blocks len)).sum
  created : w'.created = w.created ++ fx.filterMap Effect.creates
  framesTried : w'.framesTried = w.framesTried ++ fx.filterMap Effect.triedFrame

theorem logs_of_removals {removed freed : List Effect}
    (h : w'.log = w.log ++ (fx ++ (removed ++ freed))) (hremoved : Removals removed) :
    Logs w w' (fx ++ freed) := by
  refine ⟨?_, fun len => ?_, ?_, ?_⟩
  · rw [openFiles_of_log h]
    simp only [List.map_append, List.sum_append, hremoved.handles, zero_add]
  · rw [blocks_of_log h]
    simp only [List.map_append, List.sum_append, hremoved.blocks, zero_add]
  · rw [created_of_log h]
    simp only [List.filterMap_append, hremoved.creates, List.nil_append]
  · rw [framesTried_of_log h]
    simp only [List.filterMap_append, hremoved.triedFrame, List.nil_append]

/-! ### What clearing a task does to the outside -/

/-- The `fclose` of `recv_task_clear`. -/
def closing (io : Io) : Option FileHandle → List Effect
  | none => []
  | some h => [.fclose h.path io.fcloseLoss.isNone]

theorem fcloseWrite_log (w : World) (path : Bytes) (loss : Option Bytes) :
    (w.fcloseWrite path loss).log = w.log ++ [.fclose path loss.isNone] := by
  cases loss <;> rfl

theorem remove_log (w : World) (path : Bytes) (removeOk : Bool) :
    (w.remove path removeOk).log = w.log ++ [.remove path removeOk] := by
  cases removeOk <;> rfl

/-- The `free` of `recv_task_clear`. -/
def freeing : Option Bytes → List Effect
  | none => []
  | some bitmap => [.free bitmap.length]

theorem freeBitmap_log (w : World) (t : RecvTask) :
    (w.freeBitmap t).log = w.log ++ freeing t.bitmap := by
  unfold freeBitmap freeing
  cases t.bitmap with
  | none => exact (List.append_nil _).symm
  | some bitmap => rfl

theorem discardFile_log (w : World) (io : Io) (i : Slot) :
    ∃ removed, (w.discardFile io (w.recv i)).log =
      w.log ++ (closing io (w.recv i).fp ++ removed) ∧ Removals removed := by
  -- the file is closed first, whatever becomes of its name
  have hname : ∀ v : World, ∃ removed,
      (v.discardFile io { w.recv i with fp := none }).log = v.log ++ removed ∧
        Removals removed := by
    intro v
    unfold discardFile
    dsimp only
    split_ifs
    · exact ⟨[], by simp, by simp [Removals]⟩
    · cases fileJoinPath fileDownloadDir (w.recv i).saveName 512 with
      | none => exact ⟨[], by simp, by simp [Removals]⟩
      | some path =>
        refine ⟨_, v.remove_log path io.removeOk, fun e he => ?_⟩
        exact ⟨path, io.removeOk, List.mem_singleton.mp he⟩
  cases hfp : (w.recv i).fp with
  | none =>
    obtain ⟨removed, hlog, hremoved⟩ := hname w
    refine ⟨removed, ?_, hremoved⟩
    rw [discardFile, hfp]
    exact hlog
  | some h =>
    obtain ⟨removed, hlog, hremoved⟩ := hname (w.fcloseWrite h.path io.fcloseLoss)
    refine ⟨removed, ?_, hremoved⟩
    rw [discardFile, hfp]
    rw [fcloseWrite_log, List.append_assoc] at hlog
    exact hlog

/-- **What clearing a task does to the outside**: its file is closed, then removed, and the bitmap
    is released last. -/
theorem recvTaskClear_log (w : World) (io : Io) (i : Slot) :
    ∃ removed, (w.recvTaskClear io i).log =
      w.log ++ (closing io (w.recv i).fp ++ (removed ++ freeing (w.recv i).bitmap)) ∧
        Removals removed := by
  obtain ⟨removed, hlog, hremoved⟩ := w.discardFile_log io i
  refine ⟨removed, ?_, hremoved⟩
  show ((w.discardFile io (w.recv i)).freeBitmap (w.recv i)).log = _
  rw [freeBitmap_log, hlog]
  simp only [List.append_assoc]

/-- Removing a name that no file has changes nothing. -/
theorem disk_remove_of_free {path : Bytes} (h : w.disk path = none) (removeOk : Bool) :
    (w.remove path removeOk).disk = w.disk := by
  cases removeOk with
  | false => rfl
  | true =>
    show Function.update w.disk path none = w.disk
    rw [← h, Function.update_eq_self]

/-- Clearing a task that has no file yet, and a name that is free if any. -/
theorem disk_recvTaskClear_of_free (io : Io) {i : Slot} (hfp : (w.recv i).fp = none)
    (hfree : (w.recv i).saveName = [] ∨ ∀ path,
      fileJoinPath fileDownloadDir (w.recv i).saveName 512 = some path → w.disk path = none) :
    (w.recvTaskClear io i).disk = w.disk := by
  rw [recvTaskClear, disk_setRecv, disk_freeBitmap, discardFile, hfp]
  dsimp only
  split_ifs with hname
  · rfl
  · cases hpath : fileJoinPath fileDownloadDir (w.recv i).saveName 512 with
    | none => rfl
    | some path => exact disk_remove_of_free (hfree.resolve_left hname path hpath) io.removeOk

/-! ### The ways `/accept` ends -/

/-- There is a transfer for `/accept` to decide about: it waits for the user with its INIT fields
    filled in, and no file is open. -/
structure AcceptReady (w : World) (line : Bytes) (tid : Nat) (i : Slot) : Prop where
  arg : commandsParseTidArg (line.drop 7) = some tid
  find : w.recvTaskFind tid = some i
  idle : (w.recv i).fp = none
  alone : w.recvTaskActive = none
  inited : (w.recv i).inited = true

/-- What `/accept` makes of the tasks and of the outside. -/
inductive AcceptEnd (w : World) (io : Io) (line : Bytes) : World × Status → Prop where
  | early (text : Bytes) (h : ∀ tid i, ¬ AcceptReady w line tid i) :
      AcceptEnd w io line (w.print text, .ok)
  | rejected (w' v : World) (tid : Nat) (i : Slot) (why : Bytes) (bitmap : Option Bytes)
      (removed : List Effect) (h : AcceptReady w line tid i) (hown : w.RefusesAccept io tid)
      (hasked : w.AskedBitmap i v bitmap)
      (htasks : w'.tasks = { w.tasks with recv := Function.update w.recv i RecvTask.zero })
      (hlog : w'.log = v.log ++ ([.print why,
        .send (frameBytes msgFileReject (utilsWriteU32Be tid)) io.sendOk] ++
          (removed ++ freeing bitmap)))
      (hremoved : Removals removed) (hdisk : (w.recv i).saveName = [] → w'.disk = w.disk) :
      AcceptEnd w io line (w', .ok)
  | lost (w' : World) (tid : Nat) (i : Slot) (name : Bytes) (removed : List Effect)
      (h : AcceptReady w line tid i) (hown : ¬ w.RefusesAccept io tid) (hsend : io.sendOk = false)
      (hname : SingleComponent name)
      (hfree : w.disk (utf8 "downloads/" ++ name) = none)
      (htasks : w'.tasks = { w.tasks with recv := Function.update w.recv i RecvTask.zero })
      (hlog : w'.log = w.log ++ ([.malloc (w.recv i).bitmapNeed true,
        .fopen (utf8 "downloads/" ++ name),
        .send (frameBytes msgFileAccept (utilsWriteU32Be tid)) false,
        .fclose (utf8 "downloads/" ++ name) io.fcloseLoss.isNone] ++
          (removed ++ [.free (w.recv i).bitmapNeed])))
      (hremoved : Removals removed) (hdisk : w'.disk = w.disk ∨ io.removeOk = false) :
      AcceptEnd w io line (w', .lost)
  | accepted (w' : World) (tid : Nat) (i : Slot) (name text : Bytes)
      (h : AcceptReady w line tid i) (hown : ¬ w.RefusesAccept io tid) (hsend : io.sendOk = true)
      (hname : SingleComponent name)
      (hfree : w.disk (utf8 "downloads/" ++ name) = none)
      (htasks : w'.tasks = { w.tasks with
        recv := Function.update w.recv i
          ((w.recv i).opened name (utf8 "downloads/" ++ name)) })
      (hlog : w'.log = w.log ++ [.malloc (w.recv i).bitmapNeed true,
        .fopen (utf8 "downloads/" ++ name),
        .send (frameBytes msgFileAccept (utilsWriteU32Be tid)) true, .print text])
      (hdisk : w'.disk = Function.update w.disk (utf8 "downloads/" ++ name) (some [])) :
      AcceptEnd w io line (w', .ok)

theorem fileJoinPath_eq_some {name path : Bytes} {outSz : Nat}
    (h : fileJoinPath fileDownloadDir name outSz = some path) :
    path = utf8 "downloads/" ++ name := by
  rw [fileJoinPath] at h
  split_ifs at h
  rw [← Option.some.inj h, ← List.append_assoc]
  rfl

variable {io : Io} {line : Bytes} {tid : Nat} {i : Slot}

/-- A refusal by `recv_task_reject`, on the way to which only the fields of the task changed. -/
theorem AcceptReady.rejected (h : AcceptReady w line tid i) (hown : w.RefusesAccept io tid)
    {u : World} {t : RecvTask} (hasked : w.AskedBitmap i u t.bitmap)
    (ht : t.tid = (w.recv i).tid) (hfp : t.fp = none)
    (hfree : (w.recv i).saveName = [] → t.saveName = [] ∨ ∀ path,
      fileJoinPath fileDownloadDir t.saveName 512 = some path → w.disk path = none)
    (why : Bytes) : AcceptEnd w io line ((u.setRecv i t).recvTaskReject io i why, .ok) := by
  obtain ⟨htasks, hdisk, -⟩ := hasked.quiet
  rw [recvTaskReject, sendTid_eq]
  generalize hv : ((u.setRecv i t).print why).emit _ = v
  have hslot : v.recv i = t := by
    subst hv
    simp
  obtain ⟨removed, hlog, hremoved⟩ := v.recvTaskClear_log io i
  rw [hslot, hfp] at hlog
  refine .rejected _ u tid i why t.bitmap removed h hown hasked ?_ ?_ hremoved fun hname => ?_
  · subst hv
    simp [htasks]
  · rw [hlog, ← (recvTaskFind_eq_some h.find).2, ← ht]
    subst hv
    simp [setRecv, print, emit, closing]
    rfl
  · have hsame : v.disk = w.disk := by
      subst hv
      exact hdisk
    rw [disk_recvTaskClear_of_free io (by rw [hslot, hfp]) (by
      rw [hslot, hsame]
      exact hfree hname), hsame]

/-- Releasing the bitmap is nothing to the files and the connection. -/
theorem freeing_others (bitmap : Option Bytes) :
    ((freeing bitmap).map Effect.handles).sum = 0 ∧
      (freeing bitmap).filterMap Effect.creates = [] ∧
      (freeing bitmap).filterMap Effect.triedFrame = [] := by
  cases bitmap <;> exact ⟨rfl, rfl, rfl⟩

/-- What was asked for is what the task has, and is released with it. -/
theorem AskedBitmap.blocks {v : World} {bitmap : Option Bytes} (h : w.AskedBitmap i v bitmap)
    (hnone : (w.recv i).bitmap = none) (len : Nat) :
    v.blocks len + ((freeing bitmap).map (Effect.blocks len)).sum = w.blocks len := by
  cases h with
  | notYet =>
    rw [hnone]
    exact add_zero _
  | refused n =>
    have hlog : (w.emit (.malloc n false)).log = w.log ++ [.malloc n false] := rfl
    rw [blocks_of_log hlog]
    simp [freeing, Effect.blocks]
  | granted bitmap =>
    have hlog : (w.emit (.malloc bitmap.length true)).log =
        w.log ++ [.malloc bitmap.length true] := rfl
    rw [blocks_of_log hlog]
    simp only [freeing, List.map_cons, List.map_nil, List.sum_cons, List.sum_nil, Effect.blocks]
    split_ifs <;> omega

theorem AskedBitmap.others {v : World} {bitmap : Option Bytes} (h : w.AskedBitmap i v bitmap) :
    v.openFiles = w.openFiles ∧ v.created = w.created := by
  have hasked (len : Nat) (ok : Bool) : (w.emit (.malloc len ok)).openFiles = w.openFiles ∧
      (w.emit (.malloc len ok)).created = w.created :=
    ⟨(openFiles_of_log rfl).trans (add_zero _), (created_of_log rfl).trans (List.append_nil _)⟩
  cases h with
  | notYet => exact ⟨rfl, rfl⟩
  | refused n => exact hasked n false
  | granted bitmap => exact hasked bitmap.length true

/-- Where a transfer is refused, a bitmap that was asked for goes again with the task; no more is
    left of it than one REJECT. -/
theorem AskedBitmap.rejected_logs {v w' : World} {bitmap : Option Bytes} {why frame : Bytes}
    {ok : Bool} {removed : List Effect} (h : w.AskedBitmap i v bitmap)
    (hlog : w'.log = v.log ++ ([.print why, .send frame ok] ++ (removed ++ freeing bitmap)))
    (hremoved : Removals removed) :
    w'.openFiles = w.openFiles ∧
      ((w.recv i).bitmap = none → ∀ len, w'.blocks len = w.blocks len) ∧
      w'.created = w.created ∧ w'.framesTried = w.framesTried ++ [(frame, ok)] := by
  obtain ⟨hopen, hblocks, hcreated, hframes⟩ := logs_of_removals hlog hremoved
  obtain ⟨hhandles, hcreates, htried⟩ := freeing_others bitmap
  obtain ⟨hvopen, hvcreated⟩ := h.others
  refine ⟨?_, fun hnone len => ?_, ?_, ?_⟩
  · rw [hopen, hvopen, List.map_append, List.sum_append, hhandles]
    exact add_zero _
  · rw [hblocks, List.map_append, List.sum_append, ← h.blocks hnone len]
    exact congrArg _ (zero_add _)
  · rw [hcreated, hvcreated, List.filterMap_append, hcreates]
    exact List.append_nil _
  · rw [hframes, h.framesTried, List.filterMap_append, htried]
    rfl

/-- The chosen name is a single component. -/
theorem Names.component {name : Bytes} (hname : w.Names i name) : SingleComponent name := by
  obtain ⟨base, hbase, hunique⟩ := hname.name
  exact (singleComponent_unique hbase hunique).1

/-- The connection is lost as ACCEPT is sent: the file that was just created is closed and goes
    again. -/
theorem AcceptReady.connectionLost (h : AcceptReady w line tid i)
    (hown : ¬ w.RefusesAccept io tid) (hsend : io.sendOk = false) {name : Bytes}
    (hname : w.Names i name)
    (hpath : fileJoinPath fileDownloadDir name 512 = some (utf8 "downloads/" ++ name)) :
    AcceptEnd w io line (((((w.emit (.malloc (w.recv i).bitmapNeed true)).fopenWrite
      (utf8 "downloads/" ++ name)).setRecv i
        ((w.recv i).opened name (utf8 "downloads/" ++ name))).emit
          (.send (tidFrame msgFileAccept tid).encode false)).recvTaskClear io i, .lost) := by
  have hfree := hname.free hpath
  generalize hv : ((((w.emit _).fopenWrite _).setRecv i _).emit _) = v
  have hslot : (v.recv i).saveName = name ∧
      (v.recv i).fp = some ⟨utf8 "downloads/" ++ name, 0⟩ ∧
      (v.recv i).bitmap = some (List.replicate (w.recv i).bitmapNeed 0) := by
    subst hv
    simp [RecvTask.opened, RecvTask.bitmapNeed]
  obtain ⟨removed, hlog, hremoved⟩ := v.recvTaskClear_log io i
  rw [hslot.2.1, hslot.2.2] at hlog
  refine .lost _ tid i name removed h hown hsend hname.component hfree ?_ ?_ hremoved ?_
  · subst hv
    simp
  · rw [hlog]
    subst hv
    simp [setRecv, emit, fopenWrite, setDisk, closing, freeing]
    rfl
  · cases hremove : io.removeOk with
    | false => exact Or.inr rfl
    | true =>
      obtain ⟨hother, hgone⟩ := v.disk_recvTaskClear_of_named io (i := i)
        (by rw [hslot.1]; exact hname.ne_nil) (by rw [hslot.1, hpath])
        fun fh hfh => by rw [← Option.some.inj (hslot.2.1.symm.trans hfh)]
      refine Or.inl (funext fun p => ?_)
      by_cases hp : p = utf8 "downloads/" ++ name
      · rw [hp, hgone hremove, hfree]
      · rw [hother p hp]
        subst hv
        simp [fopenWrite, setDisk, emit, hp]

/-- **Every way `/accept` can end.** -/
theorem fileCmdAccept_ends (w : World) (io : Io) (line : Bytes) :
    AcceptEnd w io line (w.fileCmdAccept io line) := by
  unfold fileCmdAccept
  cases harg : commandsParseTidArg (line.drop 7) with
  | none => exact .early _ fun tid i h => absurd (harg.symm.trans h.arg) (by simp)
  | some tid =>
    dsimp only
    have hready : ∀ i, w.AwaitsUser tid i → AcceptReady w line tid i :=
      fun i h => ⟨harg, h.find, h.idle, h.alone, h.inited⟩
    have hbranch := w.acceptTid_branch io tid
    generalize w.acceptTid io tid = res at hbranch ⊢
    cases hbranch with
    | unknown hfind =>
      refine .early _ fun tid' i h => ?_
      obtain rfl := Option.some.inj (harg.symm.trans h.arg)
      exact absurd (hfind.symm.trans h.find) (by simp)
    | early i text hfind hnot htext =>
      refine .early text fun tid' j h => hnot ?_
      obtain rfl := Option.some.inj (harg.symm.trans h.arg)
      obtain rfl := Option.some.inj (hfind.symm.trans h.find)
      exact ⟨h.find, h.idle, h.alone, h.inited⟩
    | unnamed i why h hown hwhy =>
      have hreject : AcceptEnd w io line
          ((w.setRecv i (w.recv i)).recvTaskReject io i why, .ok) :=
        (hready i h).rejected hown .notYet rfl h.idle Or.inl why
      rwa [setRecv_self] at hreject
    | uncreated i v t why h hown hname htid hfp hasked hwhy =>
      exact (hready i h).rejected hown hasked htid hfp (fun _ => Or.inr fun path => hname.free) why
    | lost i name path h hown hname hpath hsend =>
      obtain rfl := fileJoinPath_eq_some hpath
      exact (hready i h).connectionLost hown hsend hname hpath
    | accepted i name path h hown hname hpath hsend =>
      obtain rfl := fileJoinPath_eq_some hpath
      refine .accepted _ tid i name (utf8 "已接受 #" ++ (decimal tid ++ (utf8 "，保存到: " ++
        (fileDownloadDir ++ (utf8 "/" ++ name))))) (hready i h) hown hsend hname.component
        (hname.free hpath) rfl ?_ rfl
      simp only [print, emit, setRecv, fopenWrite, setDisk, List.append_assoc]
      rfl

/-- **Path containment.**  What `/accept` opens for writing, if anything, is a single component
    of `downloads/` that no file has yet.  Where it opens nothing although there is a transfer to
    decide about, the transfer is rejected and its slot cleared. -/
theorem accept_contained (w : World) (io : Io) (line : Bytes) :
    ∃ opened, (w.fileCmdAccept io line).1.created = w.created ++ opened ∧
      ((∃ name, opened = [utf8 "downloads/" ++ name] ∧ SingleComponent name ∧
          w.disk (utf8 "downloads/" ++ name) = none) ∨
        opened = [] ∧ ((∀ tid i, ¬ AcceptReady w line tid i) ∨
          ∃ tid i, AcceptReady w line tid i ∧
            (w.fileCmdAccept io line).1.recv i = RecvTask.zero ∧
            (w.fileCmdAccept io line).1.framesTried =
              w.framesTried ++ [(frameBytes msgFileReject (utilsWriteU32Be tid), io.sendOk)])) := by
  have hends := w.fileCmdAccept_ends io line
  generalize w.fileCmdAccept io line = res at hends
  cases hends with
  | early text h => exact ⟨[], created_of_log (w.log_print text), Or.inr ⟨rfl, Or.inl h⟩⟩
  | rejected w' v tid i why bitmap removed h hown hasked htasks hlog hremoved hdisk =>
    obtain ⟨-, -, hcreated, hframes⟩ := hasked.rejected_logs hlog hremoved
    refine ⟨[], by rw [hcreated, List.append_nil], Or.inr ⟨rfl, Or.inr ⟨tid, i, h, ?_, hframes⟩⟩⟩
    show w'.tasks.recv i = _
    rw [htasks]
    exact Function.update_self ..
  | lost w' tid i name removed h hown hsend hname hfree htasks hlog hremoved hdisk =>
    exact ⟨_, (logs_of_removals hlog hremoved).created, Or.inl ⟨name, rfl, hname, hfree⟩⟩
  | accepted w' tid i name text h hown hsend hname hfree htasks hlog hdisk =>
    exact ⟨_, created_of_log hlog, Or.inl ⟨name, rfl, hname, hfree⟩⟩

/-! ### Refused commands leave nothing behind -/

/-- Tasks, files and the connection are those of before, and no file was left open and no memory
    taken. -/
structure Untouched (w w' : World) : Prop where
  tasks : w'.tasks = w.tasks
  disk : w'.disk = w.disk
  framesTried : w'.framesTried = w.framesTried
  openFiles : w'.openFiles = w.openFiles
  blocks : ∀ len, w'.blocks len = w.blocks len

theorem Untouched.of_log (htasks : w'.tasks = w.tasks) (hdisk : w'.disk = w.disk)
    (hlog : w'.log = w.log ++ fx) (hframes : fx.filterMap Effect.triedFrame = [])
    (hhandles : (fx.map Effect.handles).sum = 0)
    (hblocks : ∀ len, (fx.map (Effect.blocks len)).sum = 0) : Untouched w w' := by
  refine ⟨htasks, hdisk, ?_, ?_, fun len => ?_⟩
  · rw [framesTried_of_log hlog, hframes, List.append_nil]
  · rw [openFiles_of_log hlog, hhandles, add_zero]
  · rw [blocks_of_log hlog, hblocks, add_zero]

theorem untouched_print (w : World) (text : Bytes) : Untouched w (w.print text) :=
  .of_log rfl rfl (w.log_print text) rfl rfl fun _ => rfl

/-- What makes `/sendfile` refuse: its usage, a busy slot, or the file. -/
def SendfileRefuses (w : World) (io : SendfileIo) (line : Bytes) : Prop :=
  ∀ target filename,
    commandsParseSendfile line maxUsernameLen maxFilenameLen = some (target, filename) →
      w.send.busy = true ∨ io.fopenOk = false ∨ io.seekEndOk = false ∨ io.seekSetOk = false ∨
        io.fsize ≤ 0

theorem sendfile_untouched {io : SendfileIo} (h : SendfileRefuses w io line) :
    Untouched w (w.fileCmdSendfile io line).1 ∧ (w.fileCmdSendfile io line).2 = .ok := by
  apply w.fileCmdSendfile_cases
    (P := fun res => Untouched w res.1 ∧ res.2 = .ok)
  case refused => exact fun _ _ text _ => ⟨untouched_print w text, rfl⟩
  case givenUp =>
    intro _ _ filename text _
    exact ⟨.of_log rfl rfl (by simp [print, emit]; rfl) rfl rfl fun _ => rfl, rfl⟩
  case submitted =>
    intro target filename hs
    have hsize := hs.size
    have hwhy := h target filename hs.parse
    exact absurd hwhy (by simp [hs.idle, hs.file]; omega)

/-- What makes `/reject` refuse: its usage, an unknown id, or a file that is open. -/
def RejectRefuses (w : World) (line : Bytes) : Prop :=
  ∀ tid i, commandsParseTidArg (line.drop 7) = some tid → w.recvTaskFind tid = some i →
    (w.recv i).fp.isSome = true

theorem reject_untouched (io : Io) (h : RejectRefuses w line) :
    Untouched w (w.fileCmdReject io line).1 ∧ (w.fileCmdReject io line).2 = .ok := by
  unfold fileCmdReject
  cases harg : commandsParseTidArg (line.drop 7) with
  | none => exact ⟨untouched_print w _, rfl⟩
  | some tid =>
    dsimp only
    unfold rejectTid
    cases hfind : w.recvTaskFind tid with
    | none => exact ⟨untouched_print w _, rfl⟩
    | some i =>
      dsimp only
      rw [if_pos (h tid i harg hfind)]
      exact ⟨untouched_print w _, rfl⟩

/-- What makes `/cancel` refuse: its usage, or an id that no task has. -/
def CancelRefuses (w : World) (line : Bytes) : Prop :=
  ∀ tid, commandsParseTidArg (line.drop 7) = some tid →
    w.sendTaskMatches tid = false ∧ w.recvTaskFind tid = none

theorem cancel_untouched (io : Io) (h : CancelRefuses w line) :
    Untouched w (w.fileCmdCancel io line).1 ∧ (w.fileCmdCancel io line).2 = .ok := by
  unfold fileCmdCancel
  cases harg : commandsParseTidArg (line.drop 7) with
  | none => exact ⟨untouched_print w _, rfl⟩
  | some tid =>
    obtain ⟨hsend, hfind⟩ := h tid harg
    dsimp only
    rw [cancelTid, hsend, hfind]
    exact ⟨untouched_print w _, rfl⟩

/-- `/accept` gave the transfer up: the slot is zeroed and no other task changed, the files are
    those of before (unless a `remove` of the new file failed), no file is left open and no memory
    taken, and one frame was tried: REJECT, or the ACCEPT that did not go out. -/
structure AcceptFailed (w : World) (io : Io) (tid : Nat) (i : Slot) (status : Status)
    (frame : Bytes × Bool) (res : World × Status) : Prop where
  reports : res.2 = status
  tasks : res.1.tasks = { w.tasks with recv := Function.update w.recv i RecvTask.zero }
  disk : res.1.disk = w.disk ∨ (io.removeOk = false ∧ status = .lost)
  openFiles : res.1.openFiles = w.openFiles
  blocks : ∀ len, res.1.blocks len = w.blocks len
  framesTried : res.1.framesTried = w.framesTried ++ [frame]

/-- `/accept` went through: ACCEPT is out, and the slot has the one new open file and the one new
    block, its bitmap. -/
structure AcceptDone (w : World) (tid : Nat) (i : Slot) (res : World × Status) : Prop where
  reports : res.2 = .ok
  fp : (res.1.recv i).fp.isSome = true
  openFiles : res.1.openFiles = w.openFiles + 1
  bitmap : ∃ b, (res.1.recv i).bitmap = some b ∧
    ∀ len, res.1.blocks len = w.blocks len + if b.length = len then 1 else 0
  framesTried : res.1.framesTried =
    w.framesTried ++ [(frameBytes msgFileAccept (utilsWriteU32Be tid), true)]

/-- How `/accept` ends once there is a transfer to decide about: with REJECT where a step before
    ACCEPT fails, with a lost connection where ACCEPT does not go out, and else with an open
    file. -/
structure AcceptEnds (w : World) (io : Io) (tid : Nat) (i : Slot) (res : World × Status) :
    Prop where
  refused : w.RefusesAccept io tid → AcceptFailed w io tid i .ok
    (frameBytes msgFileReject (utilsWriteU32Be tid), io.sendOk) res
  lost : ¬ w.RefusesAccept io tid → io.sendOk = false → AcceptFailed w io tid i .lost
    (frameBytes msgFileAccept (utilsWriteU32Be tid), false) res
  done : ¬ w.RefusesAccept io tid → io.sendOk = true → AcceptDone w tid i res

theorem accept_untouched (io : Io) (h : ∀ tid i, ¬ AcceptReady w line tid i) :
    Untouched w (w.fileCmdAccept io line).1 ∧ (w.fileCmdAccept io line).2 = .ok := by
  have hends := w.fileCmdAccept_ends io line
  generalize w.fileCmdAccept io line = res at hends
  cases hends with
  | early text => exact ⟨untouched_print w text, rfl⟩
  | rejected w' v tid i why bitmap removed hready => exact absurd hready (h tid i)
  | lost w' tid i name removed hready => exact absurd hready (h tid i)
  | accepted w' tid i name text hready => exact absurd hready (h tid i)

theorem AcceptReady.unique {tid' : Nat} {i' : Slot} (h : AcceptReady w line tid i)
    (h' : AcceptReady w line tid' i') : tid' = tid ∧ i' = i := by
  obtain rfl := Option.some.inj (h.arg.symm.trans h'.arg)
  exact ⟨rfl, Option.some.inj (h'.find.symm.trans h.find)⟩

theorem acceptEnds (hcoh : CoherentTable w.recv) (io : Io) (h : AcceptReady w line tid i) :
    AcceptEnds w io tid i (w.fileCmdAccept io line) := by
  have hname := hcoh.pendingName i h.idle
  have hbitmap := hcoh.pendingBitmap i h.idle
  have hends := w.fileCmdAccept_ends io line
  generalize w.fileCmdAccept io line = res at hends
  cases hends with
  | early text hearly => exact absurd h (hearly tid i)
  | rejected w' v tid' i' why bitmap removed hready hown hasked htasks hlog hremoved hdisk =>
    obtain ⟨rfl, rfl⟩ := h.unique hready
    obtain ⟨hopen, hblocks, -, hframes⟩ := hasked.rejected_logs hlog hremoved
    refine ⟨fun _ => ?_, fun hnot => absurd hown hnot, fun hnot => absurd hown hnot⟩
    exact ⟨rfl, htasks, Or.inl (hdisk hname), hopen, hblocks hbitmap, hframes⟩
  | lost w' tid' i' name removed hready hown hsend hcomponent hfree htasks hlog hremoved hdisk =>
    obtain ⟨rfl, rfl⟩ := h.unique hready
    -- what was opened is closed again, what was allocated is released
    obtain ⟨hopen, hblocks, -, hframes⟩ := logs_of_removals hlog hremoved
    refine ⟨fun hrefuses => absurd hrefuses hown, fun _ _ => ?_,
      fun _ hok => absurd (hsend.symm.trans hok) (by simp)⟩
    refine ⟨rfl, htasks, hdisk.imp_right fun hremove => ⟨hremove, rfl⟩, hopen.trans (add_zero _),
      fun len => ?_, hframes⟩
    rw [hblocks]
    simp only [List.cons_append, List.nil_append, List.map_cons, List.map_nil, List.sum_cons,
      List.sum_nil, Effect.blocks]
    split_ifs <;> omega
  | accepted w' tid' i' name text hready hown hsend hcomponent hfree htasks hlog hdisk =>
    obtain ⟨rfl, rfl⟩ := h.unique hready
    have hslot : w'.recv i' = (w.recv i').opened name (utf8 "downloads/" ++ name) := by
      show w'.tasks.recv i' = _
      rw [htasks]
      exact Function.update_self ..
    refine ⟨fun hrefuses => absurd hrefuses hown,
      fun _ hlost => absurd (hsend.symm.trans hlost) (by simp), fun _ _ => ?_⟩
    refine ⟨rfl, by rw [hslot]; rfl, openFiles_of_log hlog,
      ⟨_, by rw [hslot]; rfl, fun len => ?_⟩, framesTried_of_log hlog⟩
    rw [blocks_of_log hlog, List.length_replicate]
    simp [Effect.blocks, RecvTask.bitmapNeed]

end World

/-- **Refused commands are atomic.**  A command refused before anything is sent touches nothing.
    An `/accept` that fails later gives up exactly its own task, and with it the bitmap and the
    file that this call may have added to it: with one REJECT where a step before the ACCEPT frame
    fails, with none where that frame does not go out. -/
theorem refused_commands_atomic {w : World} (hw : Reachable w) (line : Bytes) (io : Io)
    (sio : SendfileIo) :
    (World.SendfileRefuses w sio line → World.Untouched w (w.fileCmdSendfile sio line).1 ∧
        (w.fileCmdSendfile sio line).2 = .ok) ∧
      ((∀ tid i, ¬ World.AcceptReady w line tid i) →
        World.Untouched w (w.fileCmdAccept io line).1 ∧ (w.fileCmdAccept io line).2 = .ok) ∧
      (World.RejectRefuses w line → World.Untouched w (w.fileCmdReject io line).1 ∧
        (w.fileCmdReject io line).2 = .ok) ∧
      (World.CancelRefuses w line → World.Untouched w (w.fileCmdCancel io line).1 ∧
        (w.fileCmdCancel io line).2 = .ok) ∧
      ∀ tid i, World.AcceptReady w line tid i → (w.recv i).bitmap = none ∧
        World.AcceptEnds w io tid i (w.fileCmdAccept io line) := by
  refine ⟨World.sendfile_untouched, World.accept_untouched io, World.reject_untouched io,
    World.cancel_untouched io, fun tid i hready => ⟨?_, ?_⟩⟩
  · exact hw.coherent.pendingBitmap i hready.idle
  · exact World.acceptEnds hw.coherent.toCoherentTable io hready

/-- Transfer 7 is announced and has its INIT fields. -/
def sevenAnnounced : World :=
  fileRun (World.init fun _ => none)
    [.announcement ((Announcement.incoming (utf8 "bob") (utf8 "a") 1).text 7) Io.ok,
      .frame msgFileInit (utf8 "bob" ++ 0 :: utf8 "a" ++ 0 :: utf8 "1" ++ [0]) Io.ok]

/-- `/accept 7` when the file cannot be created: the bitmap is there by then, and goes again. -/
theorem refused_commands_atomic_fopen :
    World.AcceptFailed sevenAnnounced { Io.ok with fopenOk := false } 7 0 .ok
      (frameBytes msgFileReject (utilsWriteU32Be 7), true)
      (sevenAnnounced.fileCmdAccept { Io.ok with fopenOk := false } (utf8 "/accept 7")) := by
  have hready : World.AcceptReady sevenAnnounced (utf8 "/accept 7") 7 0 := by
    constructor <;> decide +kernel
  have hrefuses : World.RefusesAccept sevenAnnounced { Io.ok with fopenOk := false } 7 :=
    ⟨0, hready.find, Or.inr fun _ _ _ _ => Or.inr (Or.inr (Or.inr rfl))⟩
  obtain ⟨-, -, -, -, haccept⟩ := refused_commands_atomic
    (Reachable.run (Reachable.init fun _ => none) _ : Reachable sevenAnnounced)
    (utf8 "/accept 7") { Io.ok with fopenOk := false }
    ⟨true, true, 1, true, true, SendfileIo.fsizeLong_one⟩
  exact (haccept 7 0 hready).2.refused hrefuses

/-! ### Room for another transfer -/

namespace World

/-- The slots of the tasks that wait for `/accept`. -/
def pendingSlots (w : World) : Finset Slot :=
  Finset.univ.filter fun i => (w.recv i).busy = true ∧ (w.recv i).fp = none

variable {w : World} {i : Slot}

/-- Eight tasks may be pending, next to the one that is active: an announcement is taken in with
    fewer pending, else turned down with a REJECT. -/
structure TakesEight (w : World) (tid : Nat) (w' : World) : Prop where
  room : w.pendingSlots.card < fileMaxRecvPending → ∃ i, (w.recv i).busy = false ∧
    w'.tasks.recv = Function.update w.recv i (RecvTask.announced tid w.recvSeq) ∧
    w'.tasks.send = w.send ∧ w'.framesTried = w.framesTried
  full : fileMaxRecvPending ≤ w.pendingSlots.card → w'.tasks = w.tasks ∧ ∃ ok,
    w'.framesTried = w.framesTried ++ [(frameBytes msgFileReject (utilsWriteU32Be tid), ok)]

theorem recvTaskSlot_eq_none : w.recvTaskSlot = none ↔ ∀ i, (w.recv i).busy = true := by
  simp [recvTaskSlot]

/-- A free slot is not pending, and neither is the active one. -/
theorem card_pendingSlots_of_free (hfree : (w.recv i).busy = false) :
    w.pendingSlots.card < 8 ∧ (w.recvTaskActive.isSome = true → w.pendingSlots.card < 7) := by
  have hsub : w.pendingSlots ⊆ Finset.univ.erase i := by
    intro j hj
    obtain ⟨-, hbusy, -⟩ := Finset.mem_filter.mp hj
    refine Finset.mem_erase.mpr ⟨?_, Finset.mem_univ j⟩
    rintro rfl
    exact absurd (hfree.symm.trans hbusy) (by simp)
  have hcard : (Finset.univ.erase i : Finset Slot).card = 7 := by
    rw [Finset.card_erase_of_mem (Finset.mem_univ i), Finset.card_univ, Fintype.card_fin]
    rfl
  refine ⟨Nat.lt_succ_of_le (hcard ▸ Finset.card_le_card hsub), fun hactive => ?_⟩
  obtain ⟨j, hj⟩ := Option.isSome_iff_exists.mp hactive
  obtain ⟨hbusy, hfp⟩ := recvTaskActive_eq_some hj
  -- the active slot is busy, so it is another one
  have hji : j ∈ (Finset.univ.erase i : Finset Slot) := by
    refine Finset.mem_erase.mpr ⟨?_, Finset.mem_univ j⟩
    rintro rfl
    exact absurd (hfree.symm.trans hbusy) (by simp)
  rw [← hcard]
  apply Finset.card_lt_card
  refine Finset.ssubset_iff_of_subset hsub |>.mpr ⟨j, hji, fun hpending => ?_⟩
  obtain ⟨-, -, hnone⟩ := Finset.mem_filter.mp hpending
  rw [hnone] at hfp
  exact absurd hfp (by simp)

/-- With all slots busy every task but the active one is pending. -/
theorem card_pendingSlots_of_full (hcoh : CoherentTable w.recv)
    (hfull : ∀ i, (w.recv i).busy = true) :
    (w.recvTaskActive = none → w.pendingSlots.card = 8) ∧
      (w.recvTaskActive.isSome = true → w.pendingSlots.card = 7) := by
  constructor
  · intro hidle
    have hall : w.pendingSlots = Finset.univ := Finset.filter_true_of_mem fun j _ =>
      ⟨hfull j, recvTaskActive_eq_none.mp hidle j (hfull j)⟩
    rw [hall, Finset.card_univ, Fintype.card_fin]
  · intro hactive
    obtain ⟨j, hj⟩ := Option.isSome_iff_exists.mp hactive
    have hfp := (recvTaskActive_eq_some hj).2
    have hrest : w.pendingSlots = Finset.univ.erase j := by
      ext k
      simp only [pendingSlots, Finset.mem_filter, Finset.mem_univ, true_and, Finset.mem_erase,
        and_true, hfull k]
      constructor
      · rintro hnone rfl
        rw [hnone] at hfp
        exact absurd hfp (by simp)
      · intro hkj
        by_contra hopen
        exact hkj (hcoh.oneActive k j (Option.isSome_iff_ne_none.mpr hopen) hfp)
    rw [hrest, Finset.card_erase_of_mem (Finset.mem_univ j), Finset.card_univ, Fintype.card_fin]
    rfl

/-- With all slots busy, one of them by the active task, there is no room for the eighth. -/
theorem not_takesEight_of_full {w' : World} {tid : Nat} (hfull : ∀ i, (w.recv i).busy = true)
    (hcard : w.pendingSlots.card = 7) : ¬ TakesEight w tid w' := by
  intro htakes
  obtain ⟨j, hfree, -⟩ := htakes.room (by rw [hcard]; decide)
  exact absurd (hfree.symm.trans (hfull j)) (by simp)

end World

/-- **Pending transfers** are taken in up to eight, and beyond that turned down, unless exactly
    seven are pending next to an active one. -/
theorem announcement_takesEight_iff {w : World} (hw : Reachable w) (io : Io) {text : Bytes}
    {tid : Nat} (hparse : fileParseAnnouncement text = some (.recvPending, tid)) :
    World.TakesEight w tid (w.fileHandleAnnouncement io text) ↔
      ¬ (w.pendingSlots.card = 7 ∧ w.recvTaskActive.isSome = true) := by
  have hannounced : w.fileHandleAnnouncement io text = w.recvAnnounceIncoming io tid := by
    rw [World.fileHandleAnnouncement, hparse]
    rfl
  rw [hannounced, World.recvAnnounceIncoming]
  cases hslot : w.recvTaskSlot with
  | some i =>
    have hfree := World.recvTaskSlot_eq_some hslot
    obtain ⟨hroom, hactive⟩ := World.card_pendingSlots_of_free hfree
    constructor
    · rintro - ⟨hseven, hsome⟩
      exact absurd (hactive hsome) (by omega)
    · intro _
      exact ⟨fun _ => ⟨i, hfree, rfl, rfl, rfl⟩, fun hfull => absurd hroom (Nat.not_lt.mpr hfull)⟩
  | none =>
    have hfull := World.recvTaskSlot_eq_none.mp hslot
    obtain ⟨hidle, hactive⟩ := World.card_pendingSlots_of_full hw.coherent.toCoherentTable hfull
    cases hopen : w.recvTaskActive with
    | some j =>
      -- the active task has taken the eighth slot
      have hseven := hactive (by rw [hopen]; rfl)
      exact ⟨fun htakes => absurd htakes (World.not_takesEight_of_full hfull hseven),
        fun hnot => absurd ⟨hseven, rfl⟩ hnot⟩
    | none =>
      have height := hidle hopen
      refine ⟨fun _ hseven => absurd hseven.1 (by omega), fun _ => ⟨fun hroom => ?_, fun _ => ?_⟩⟩
      · exact absurd hroom (by rw [height]; decide)
      · refine ⟨by simp, io.sendOk, ?_⟩
        dsimp only
        rw [World.framesTried_sendTid, World.framesTried_print]

/-- The first announcement. -/
theorem announcement_takesEight_first :
    World.TakesEight (World.init fun _ => none) 7 ((World.init fun _ => none).fileHandleAnnouncement
      Io.ok ((Announcement.incoming (utf8 "bob") (utf8 "a") 1).text 7)) :=
  (announcement_takesEight_iff (Reachable.init _) Io.ok (by decide +kernel)).mpr
    fun h => absurd h.2 (by decide)

/-- Eight transfers are announced, and the first of them is accepted. -/
def sevenPending : World :=
  fileRun (World.init fun _ => none)
    ((List.range 8).map (fun n =>
        .announcement ((Announcement.incoming (utf8 "bob") (utf8 "a") 1).text (n + 1)) Io.ok) ++
      [.frame msgFileInit (utf8 "bob" ++ 0 :: utf8 "a" ++ 0 :: utf8 "1" ++ [0]) Io.ok,
        .accept (utf8 "/accept 1") Io.ok])

/-- Seven transfers are pending next to the active one, and the eighth is turned down. -/
theorem eighth_pending_rejected :
    Reachable sevenPending ∧ sevenPending.pendingSlots.card = 7 ∧
      sevenPending.recvTaskFind 9 = none ∧
      fileParseAnnouncement ((Announcement.incoming (utf8 "bob") (utf8 "a") 1).text 9) =
        some (.recvPending, 9) ∧
      ¬ World.TakesEight sevenPending 9 (sevenPending.fileHandleAnnouncement Io.ok
        ((Announcement.incoming (utf8 "bob") (utf8 "a") 1).text 9)) := by
  have hcard : sevenPending.pendingSlots.card = 7 := by decide +kernel
  refine ⟨Reachable.run (Reachable.init _) _, hcard, by decide +kernel, by decide +kernel, ?_⟩
  exact World.not_takesEight_of_full (by decide +kernel) hcard

end TCPClient
