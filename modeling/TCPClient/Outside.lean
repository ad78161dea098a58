import TCPClient.Client
import TCPClient.Refusals
import TCPClient.SendInvariant
import TCPClient.Welcome
import TCPClient.Lib.Trace

namespace TCPClient

open Octets Memory Trace

/-!
# What the client may do to the outside

`OutsideStep` is a protocol of the effects, by what is held: at most one file is open for reading
and one for writing, nothing is written but into the open file, nothing closed that is not open,
nothing created or removed but a file directly in the download folder; one block of memory at
most, released once; and no frames but those the protocol knows.  `uses_fileStep` says that every
call of the file module keeps to it, and `console_keeps_outside` that every session does, at every
moment.
-/

/-- What is held: the paths of the files that are open, and the length of the bitmap. -/
structure Held where
  reading : Option Bytes
  writing : Option Bytes
  block : Option Nat
  deriving DecidableEq, Repr

/-- No file is open, and no memory is taken. -/
def Held.nothing : Held := ⟨none, none, none⟩

/-- A file directly in the download folder. -/
def InDownloads (path : Bytes) : Prop :=
  ∃ name, path = utf8 "downloads/" ++ name ∧ SingleComponent name ∧ 0 ∉ name

/-- The types of the frames a client sends. -/
def clientTypes : List UInt8 :=
  World.lineTypes ++
    [msgFileInit, msgFileAccept, msgFileReject, msgFileChunk, msgFileComplete, msgFileCancel]

/-- A whole frame of a type that a client sends. -/
def IsClientFrame (bytes : Bytes) : Prop :=
  ∃ frame : Frame, frame.type ∈ clientTypes ∧ bytes = frame.encode

/-- The effects that may come while this is held, and what is held behind them. -/
inductive OutsideStep : Held → Effect → Held → Prop where
  | print (o : Held) (text : Bytes) : OutsideStep o (.print text) o
  | incoming (o : Held) (text : Bytes) : OutsideStep o (.incoming text) o
  | send (o : Held) (bytes : Bytes) (ok : Bool) (hframe : IsClientFrame bytes) :
      OutsideStep o (.send bytes ok) o
  | fopenRead (writing : Option Bytes) (block : Option Nat) (path : Bytes) :
      OutsideStep ⟨none, writing, block⟩ (.fopenRead path) ⟨some path, writing, block⟩
  | fopen (reading : Option Bytes) (block : Option Nat) (path : Bytes)
      (hpath : InDownloads path) :
      OutsideStep ⟨reading, none, block⟩ (.fopen path) ⟨reading, some path, block⟩
  | fwrite (reading : Option Bytes) (block : Option Nat) (path : Bytes) (offset : Nat)
      (data : Bytes) :
      OutsideStep ⟨reading, some path, block⟩ (.fwrite path offset data)
        ⟨reading, some path, block⟩
  | fcloseRead (writing : Option Bytes) (block : Option Nat) (path : Bytes) (ok : Bool) :
      OutsideStep ⟨some path, writing, block⟩ (.fclose path ok) ⟨none, writing, block⟩
  | fcloseWrite (reading : Option Bytes) (block : Option Nat) (path : Bytes) (ok : Bool) :
      OutsideStep ⟨reading, some path, block⟩ (.fclose path ok) ⟨reading, none, block⟩
  | remove (reading : Option Bytes) (block : Option Nat) (path : Bytes) (ok : Bool)
      (hpath : InDownloads path) :
      OutsideStep ⟨reading, none, block⟩ (.remove path ok) ⟨reading, none, block⟩
  | malloc (reading writing : Option Bytes) (len : Nat) :
      OutsideStep ⟨reading, writing, none⟩ (.malloc len true) ⟨reading, writing, some len⟩
  | mallocFailed (o : Held) (len : Nat) : OutsideStep o (.malloc len false) o
  | free (reading writing : Option Bytes) (len : Nat) :
      OutsideStep ⟨reading, writing, some len⟩ (.free len) ⟨reading, writing, none⟩

/-- The tasks hold these files and this block. -/
structure Held.Of (o : Held) (t : Tasks) : Prop where
  reading : o.reading = t.send.fp.map FileHandle.path
  writing : ∀ path, o.writing = some path ↔ ∃ i fh, (t.recv i).fp = some fh ∧ fh.path = path
  block : ∀ len, o.block = some len ↔ ∃ i b, (t.recv i).bitmap = some b ∧ b.length = len
  contained : ∀ path, o.writing = some path → InDownloads path

namespace World

/-- From `w` the client comes to `w'` by effects that may come there, the tasks go with what is
    held, and no file outside the folder changes. -/
def Uses (w w' : World) : Prop :=
  ∃ effects, w'.log = w.log ++ effects ∧
    ∀ o : Held, o.Of w.tasks → (∃ o', Run OutsideStep o effects o' ∧ o'.Of w'.tasks) ∧
      ∀ path, ¬ InDownloads path → w'.disk path = w.disk path

variable {w w' w'' : World} {io : Io} {i : Slot} {tid : Nat} {path : Bytes}

theorem Uses.refl (w : World) : Uses w w :=
  ⟨[], (List.append_nil _).symm, fun o ho => ⟨⟨o, .nil o, ho⟩, fun _ _ => rfl⟩⟩

theorem Uses.trans (h : Uses w w') (h' : Uses w' w'') : Uses w w'' := by
  obtain ⟨effects, hlog, hrun⟩ := h
  obtain ⟨effects', hlog', hrun'⟩ := h'
  refine ⟨effects ++ effects', by rw [hlog', hlog, List.append_assoc], fun o ho => ?_⟩
  obtain ⟨⟨o', hfirst, ho'⟩, hdisk⟩ := hrun o ho
  obtain ⟨⟨o'', hrest, ho''⟩, hdisk'⟩ := hrun' o' ho'
  exact ⟨⟨o'', hfirst.append hrest, ho''⟩,
    fun path hout => (hdisk' path hout).trans (hdisk path hout)⟩

/-! ### Effects -/

/-- An effect that may always come. -/
theorem uses_emit (w : World) {x : Effect} (hx : ∀ o, OutsideStep o x o) : Uses w (w.emit x) :=
  ⟨[x], rfl, fun o ho => ⟨⟨o, .single (hx o), ho⟩, fun _ _ => rfl⟩⟩

/-- Printing a line touches no resource. -/
theorem uses_print (w : World) (text : Bytes) : Uses w (w.print text) :=
  uses_emit w fun o => .print o text

/-- Neither does showing a text. -/
theorem uses_displayIncoming (w : World) (text : Bytes) : Uses w (w.displayIncoming text) :=
  uses_emit w fun o => .incoming o text

/-- A frame is sent on the open socket. -/
theorem uses_send (w : World) {bytes : Bytes} (hframe : IsClientFrame bytes) (ok : Bool) :
    Uses w (w.emit (.send bytes ok)) :=
  uses_emit w fun o => .send o bytes ok hframe

/-- So is the frame of a task id. -/
theorem uses_sendTid (w : World) {msgType : UInt8} (htype : msgType ∈ clientTypes) (tid : Nat)
    (sendOk : Bool) : Uses w (w.sendTid msgType tid sendOk).1 := by
  rw [sendTid_eq]
  exact uses_send w ⟨tidFrame msgType tid, htype, rfl⟩ sendOk

theorem uses_noSuchTransfer (w : World) (tid : Nat) : Uses w (w.noSuchTransfer tid) :=
  uses_print w _

/-! ### Tasks -/

/-- The length of the bitmap of a slot. -/
def mapLen (w : World) (i : Slot) : Option Nat := (w.recv i).bitmap.map List.length

/-- The length of a bitmap, where there is one. -/
theorem mapLen_eq_some {len : Nat} :
    w.mapLen i = some len ↔ ∃ b, (w.recv i).bitmap = some b ∧ b.length = len := by
  simp [mapLen]

/-- The tasks change, but not what they hold. -/
theorem uses_of_same (hlog : w'.log = w.log) (hdisk : w'.disk = w.disk)
    (hsend : w'.send.fp.map FileHandle.path = w.send.fp.map FileHandle.path)
    (hrecv : ∀ i, w'.openPath i = w.openPath i ∧ w'.mapLen i = w.mapLen i) : Uses w w' := by
  refine ⟨[], by rw [hlog, List.append_nil], fun o ho => ⟨⟨o, .nil o, ?_, fun path => ?_,
    fun len => ?_, ho.contained⟩, fun path _ => by rw [hdisk]⟩⟩
  · rw [ho.reading]
    exact hsend.symm
  · rw [ho.writing]
    refine exists_congr fun i => ?_
    have hpath := (hrecv i).1
    rw [← openPath_eq_some (w := w), ← openPath_eq_some (w := w'), hpath]
  · rw [ho.block]
    refine exists_congr fun i => ?_
    have hlen := (hrecv i).2
    rw [← mapLen_eq_some (w := w), ← mapLen_eq_some (w := w'), hlen]

/-- The send task may change where its file stays. -/
theorem uses_setSend (w : World) {t : SendTask}
    (h : t.fp.map FileHandle.path = w.send.fp.map FileHandle.path) : Uses w (w.setSend t) :=
  uses_of_same rfl rfl h fun _ => ⟨rfl, rfl⟩

/-- A receive task may change where its file and its bitmap stay. -/
theorem uses_setRecv (w : World) (i : Slot) {t : RecvTask}
    (hfile : t.fp.map FileHandle.path = (w.recv i).fp.map FileHandle.path)
    (hmap : t.bitmap.map List.length = (w.recv i).bitmap.map List.length) :
    Uses w (w.setRecv i t) := by
  refine uses_of_same rfl rfl rfl fun j => ?_
  by_cases hji : j = i
  · subst hji
    exact ⟨by simpa [openPath] using hfile, by simpa [mapLen] using hmap⟩
  · simp [openPath, mapLen, hji]

/-- Clearing the send task closes its file. -/
theorem uses_sendTaskClear (w : World) : Uses w w.sendTaskClear := by
  cases hfp : w.send.fp with
  | none =>
    have hclear : w.sendTaskClear = w.setSend SendTask.zero := by
      rw [sendTaskClear, fcloseSend, hfp]
    rw [hclear]
    exact uses_setSend w (by rw [hfp]; rfl)
  | some fh =>
    have hclear : w.sendTaskClear = (w.emit (.fclose fh.path true)).setSend SendTask.zero := by
      rw [sendTaskClear, fcloseSend, hfp]
    rw [hclear]
    refine ⟨[.fclose fh.path true], rfl, fun o ho => ?_⟩
    obtain ⟨reading, writing, block⟩ := o
    obtain rfl : reading = some fh.path := by
      rw [show reading = _ from ho.reading, hfp]
      rfl
    exact ⟨⟨_, .single (.fcloseRead writing block fh.path true), rfl, ho.writing, ho.block,
      ho.contained⟩, fun _ _ => rfl⟩

/-- The second half of `discardFile`: the partial file goes, unless the name was blanked. -/
def removeNamed (w : World) (io : Io) (saveName : Bytes) : World :=
  if saveName = [] then w
  else
    match fileJoinPath fileDownloadDir saveName 512 with
    | none => w
    | some path => w.remove path io.removeOk

/-- What clearing a task with this save name removes. -/
def removing (io : Io) (saveName : Bytes) : List Effect :=
  if saveName = [] then []
  else
    match fileJoinPath fileDownloadDir saveName 512 with
    | none => []
    | some path => [.remove path io.removeOk]

/-- Without a file there is only the name to remove. -/
theorem discardFile_of_none {t : RecvTask} (hfp : t.fp = none) (w : World) (io : Io) :
    w.discardFile io t = w.removeNamed io t.saveName := by
  rw [discardFile, hfp]
  rfl

/-- An open file is closed before its name is removed. -/
theorem discardFile_of_some {t : RecvTask} {fh : FileHandle} (hfp : t.fp = some fh) (w : World)
    (io : Io) :
    w.discardFile io t = (w.fcloseWrite fh.path io.fcloseLoss).removeNamed io t.saveName := by
  rw [discardFile, hfp]
  rfl

/-- A name that was chosen is removed, an empty one is not. -/
theorem log_removeNamed (w : World) (io : Io) (saveName : Bytes) :
    (w.removeNamed io saveName).log = w.log ++ removing io saveName := by
  unfold removeNamed removing
  split_ifs
  · simp
  · cases fileJoinPath fileDownloadDir saveName 512 with
    | none => simp
    | some path => exact w.remove_log path io.removeOk

/-- Other paths keep what they hold. -/
theorem disk_removeNamed_of_ne (w : World) (io : Io) {saveName : Bytes}
    (h : saveName ≠ [] → fileJoinPath fileDownloadDir saveName 512 ≠ some path) :
    (w.removeNamed io saveName).disk path = w.disk path := by
  unfold removeNamed
  split_ifs with hempty
  · rfl
  · cases hjoin : fileJoinPath fileDownloadDir saveName 512 with
    | none => rfl
    | some p =>
      have hne : path ≠ p := fun hp => h hempty (hp ▸ hjoin)
      cases hok : io.removeOk <;> simp [remove, setDisk, emit, hne]

/-- `recv_task_clear` closes the file, removes the name and frees the bitmap, in this order. -/
theorem log_recvTaskClear (w : World) (io : Io) (i : Slot) :
    (w.recvTaskClear io i).log =
      w.log ++ (closing io (w.recv i).fp ++ removing io (w.recv i).saveName ++
        freeing (w.recv i).bitmap) := by
  show ((w.discardFile io (w.recv i)).freeBitmap (w.recv i)).log = _
  rw [freeBitmap_log, ← List.append_assoc]
  congr 1
  cases hfp : (w.recv i).fp with
  | none =>
    rw [discardFile_of_none hfp]
    exact log_removeNamed w io _
  | some fh =>
    rw [discardFile_of_some hfp, log_removeNamed, fcloseWrite_log, closing, List.append_assoc]

/-- Clearing a task changes no file but its own and the one of its name. -/
theorem disk_recvTaskClear_of_ne (w : World) (io : Io) (i : Slot)
    (hfile : ∀ fh, (w.recv i).fp = some fh → fh.path ≠ path)
    (hname : (w.recv i).saveName ≠ [] →
      fileJoinPath fileDownloadDir (w.recv i).saveName 512 ≠ some path) :
    (w.recvTaskClear io i).disk path = w.disk path := by
  rw [recvTaskClear, disk_setRecv, disk_freeBitmap]
  cases hfp : (w.recv i).fp with
  | none =>
    rw [discardFile_of_none hfp]
    exact w.disk_removeNamed_of_ne io hname
  | some fh =>
    have hne : path ≠ fh.path := (hfile fh hfp).symm
    rw [discardFile_of_some hfp, disk_removeNamed_of_ne _ io hname]
    cases io.fcloseLoss <;> simp [fcloseWrite, setDisk, emit, hne]

/-- Once no file is open for writing, a file of the folder may be removed. -/
theorem run_removing {reading : Option Bytes} {block : Option Nat} {saveName : Bytes}
    (h : saveName ≠ [] → ∀ path, fileJoinPath fileDownloadDir saveName 512 = some path →
      InDownloads path) :
    Run OutsideStep ⟨reading, none, block⟩ (removing io saveName) ⟨reading, none, block⟩ := by
  unfold removing
  split_ifs with hname
  · exact .nil _
  · cases hpath : fileJoinPath fileDownloadDir saveName 512 with
    | none => exact .nil _
    | some path => exact .single (.remove reading block path _ (h hname path hpath))

/-- The bitmap of a task is the block that is held, or the task has none. -/
theorem run_freeing {reading writing : Option Bytes} {block : Option Nat} {bitmap : Option Bytes}
    (h : ∀ b, bitmap = some b → block = some b.length) :
    Run OutsideStep ⟨reading, writing, block⟩ (freeing bitmap)
      ⟨reading, writing, if bitmap.isSome then none else block⟩ := by
  cases bitmap with
  | none => exact .nil _
  | some b =>
    obtain rfl := h b rfl
    exact .single (.free reading writing b.length)

/-- No slot but one has what that one gives up. -/
structure Alone (w : World) (i : Slot) : Prop where
  file : w.openPath i ≠ none ∨ (w.recv i).saveName ≠ [] → ∀ j, j ≠ i → w.openPath j = none
  bitmap : (w.recv i).bitmap ≠ none → ∀ j, j ≠ i → (w.recv j).bitmap = none

/-- Behind clearing a task its bitmap is held no more. -/
theorem Alone.block {block : Option Nat} (h : w.Alone i)
    (hblock : ∀ len, block = some len ↔ ∃ j b, (w.recv j).bitmap = some b ∧ b.length = len)
    (io : Io) (len : Nat) :
    (if (w.recv i).bitmap.isSome then none else block) = some len ↔
      ∃ j b, ((w.recvTaskClear io i).recv j).bitmap = some b ∧ b.length = len := by
  have hcleared (j : Slot) : ((w.recvTaskClear io i).recv j).bitmap =
      if j = i then none else (w.recv j).bitmap := by
    by_cases hji : j = i <;> simp [hji, RecvTask.zero]
  cases hb : (w.recv i).bitmap with
  | none =>
    rw [Option.isSome_none, if_neg Bool.false_ne_true, hblock]
    refine exists_congr fun j => ?_
    rw [hcleared j]
    by_cases hji : j = i
    · rw [if_pos hji, hji, hb]
    · rw [if_neg hji]
  | some b =>
    rw [Option.isSome_some, if_pos rfl]
    refine iff_of_false (by simp) ?_
    rintro ⟨j, b', hj, -⟩
    rw [hcleared j] at hj
    split_ifs at hj with hji
    exact absurd (hj.symm.trans (h.bitmap (by simp [hb]) j hji)) (by simp)

/-- Clearing a receive task: its file is closed before it is removed, no other one is open, and
    its bitmap is released. -/
theorem uses_recvTaskClear (w : World) (io : Io) (i : Slot) (halone : w.Alone i)
    (hname : (w.recv i).saveName ≠ [] → ∀ path,
      fileJoinPath fileDownloadDir (w.recv i).saveName 512 = some path →
        w.openPath i = some path ∨ InDownloads path) : Uses w (w.recvTaskClear io i) := by
  refine ⟨_, w.log_recvTaskClear io i, fun o ho => ?_⟩
  obtain ⟨reading, writing, block⟩ := o
  have hopened (fh : FileHandle) (hfp : (w.recv i).fp = some fh) : InDownloads fh.path :=
    ho.contained fh.path ((ho.writing fh.path).mpr ⟨i, fh, hfp, rfl⟩)
  have hremoved : (w.recv i).saveName ≠ [] → ∀ path,
      fileJoinPath fileDownloadDir (w.recv i).saveName 512 = some path → InDownloads path := by
    intro hne path hpath
    rcases hname hne path hpath with hopen | hin
    · exact ho.contained path ((ho.writing path).mpr ⟨i, openPath_eq_some.mp hopen⟩)
    · exact hin
  refine ⟨?_, fun p hout => w.disk_recvTaskClear_of_ne io i
    (fun fh hfp hp => hout (hp ▸ hopened fh hfp)) fun hne hjoin => hout (hremoved hne p hjoin)⟩
  have hfreed {writing' : Option Bytes} :
      Run OutsideStep ⟨reading, writing', block⟩ (freeing (w.recv i).bitmap)
        ⟨reading, writing', if (w.recv i).bitmap.isSome then none else block⟩ :=
    run_freeing fun b hb => (ho.block b.length).mpr ⟨i, b, hb, rfl⟩
  have hblock := halone.block ho.block io
  have hreading : reading = (w.recvTaskClear io i).send.fp.map FileHandle.path := by
    rw [show reading = _ from ho.reading]
    simp
  -- with a file of its own or a name, this is the only task that matters
  have hcleared (hwhy : w.openPath i ≠ none ∨ (w.recv i).saveName ≠ []) :
      Held.Of ⟨reading, none, if (w.recv i).bitmap.isSome then none else block⟩
        (w.recvTaskClear io i).tasks := by
    refine ⟨hreading, fun path => ?_, hblock, by simp⟩
    have hnone (j : Slot) : (w.recvTaskClear io i).openPath j = none :=
      openPath_cleared (i := i) (by simp) (halone.file hwhy) j
    refine iff_of_false (by simp) ?_
    rintro ⟨j, hj⟩
    exact absurd ((hnone j).symm.trans (openPath_eq_some.mpr hj)) (by simp)
  cases hfp : (w.recv i).fp with
  | some fh =>
    obtain rfl : writing = some fh.path := (ho.writing fh.path).mpr ⟨i, fh, hfp, rfl⟩
    have hclosed : Run OutsideStep ⟨reading, some fh.path, block⟩
        (closing io (some fh) ++ removing io (w.recv i).saveName) ⟨reading, none, block⟩ :=
      .cons (.fcloseWrite reading block fh.path _) (run_removing hremoved)
    exact ⟨_, hclosed.append hfreed, hcleared (Or.inl (by simp [openPath, hfp]))⟩
  | none =>
    by_cases hne : (w.recv i).saveName = []
    · -- a pending task has nothing to close or to remove
      rw [hne]
      refine ⟨_, hfreed, hreading, fun path => ?_, hblock, ho.contained⟩
      rw [ho.writing]
      refine exists_congr fun j => ?_
      by_cases hji : j = i
      · subst hji
        have hnone : (w.tasks.recv j).fp = none := hfp
        simp [RecvTask.zero, hnone]
      · simp [hji]
    · obtain rfl : writing = none := by
        by_contra hopen
        obtain ⟨path, rfl⟩ := Option.ne_none_iff_exists'.mp hopen
        obtain ⟨j, hj⟩ := (ho.writing path).mp rfl
        by_cases hji : j = i
        · subst hji
          obtain ⟨fh, hfh, -⟩ := hj
          exact absurd (hfp.symm.trans hfh) (by simp)
        · exact absurd ((halone.file (Or.inr hne) j hji).symm.trans (openPath_eq_some.mpr hj))
            (by simp)
      exact ⟨_, (run_removing hremoved).append hfreed, hcleared (Or.inr hne)⟩

/-- A table without an open file has no bitmap. -/
theorem bitmap_of_noneOpen (hcoh : CoherentTable w.recv) {j : Slot} (h : w.openPath j = none) :
    (w.recv j).bitmap = none := hcoh.pendingBitmap j (openPath_eq_none.mp h)

/-- Clearing a task of a coherent table. -/
theorem uses_clear (hcoh : CoherentTable w.recv) (io : Io) (i : Slot) :
    Uses w (w.recvTaskClear io i) := by
  cases hfp : (w.recv i).fp with
  | none =>
    have hnil := hcoh.pendingName i hfp
    refine uses_recvTaskClear w io i ⟨fun h => ?_, fun h => ?_⟩ fun hne => absurd hnil hne
    · exact h.elim (fun h => absurd (openPath_eq_none.mpr hfp) h) fun h => absurd hnil h
    · exact absurd (hcoh.pendingBitmap i hfp) h
  | some fh =>
    obtain ⟨hname, hpath⟩ := hcoh.activePath i fh hfp
    have hopen : w.openPath i = some fh.path := openPath_eq_some.mpr ⟨fh, hfp, rfl⟩
    have hother (j : Slot) (hji : j ≠ i) : w.openPath j = none := openPath_of_ne hcoh hopen hji
    refine uses_recvTaskClear w io i
      ⟨fun _ => hother, fun _ j hji => bitmap_of_noneOpen hcoh (hother j hji)⟩
      fun _ path hjoin => Or.inl ?_
    rw [hopen]
    exact hpath.symm.trans hjoin

/-- Clearing a task behind effects that leave the table alone. -/
theorem Uses.clear (h : Uses w w') (hcoh : CoherentTable w.recv) (hrecv : w'.recv = w.recv)
    (io : Io) (i : Slot) : Uses w (w'.recvTaskClear io i) :=
  h.trans (uses_clear (hrecv ▸ hcoh) io i)

/-! ### The receiving side -/

/-- A finished download is closed, and its bitmap freed. -/
theorem uses_recvTaskFinish (hcoh : CoherentTable w.recv) (io : Io) {fh : FileHandle}
    (hfp : (w.recv i).fp = some fh) : Uses w (w.recvTaskFinish io i) := by
  unfold recvTaskFinish
  dsimp only
  split_ifs
  · -- `save_name` is blanked, so that nothing is removed
    have hblank (v : World) : Uses v (v.setRecv i { v.recv i with saveName := [] }) :=
      uses_setRecv v i rfl rfl
    have hopen : w.openPath i = some fh.path := openPath_eq_some.mpr ⟨fh, hfp, rfl⟩
    have hother (j : Slot) (hji : j ≠ i) : w.openPath j = none := openPath_of_ne hcoh hopen hji
    refine ((uses_print w _).trans (hblank _)).trans
      (uses_recvTaskClear _ io i ⟨fun _ j hji => ?_, fun _ j hji => ?_⟩ (by simp))
    · simpa [openPath, hji] using hother j hji
    · simpa [hji] using bitmap_of_noneOpen hcoh (hother j hji)
  · exact (uses_print w _).clear hcoh rfl io i

/-- A task that is declared complete is finished, or cleared where it has no file. -/
theorem uses_recvTaskComplete (hcoh : CoherentTable w.recv) (io : Io) (tid : Nat) :
    Uses w (w.recvTaskComplete io tid) := by
  unfold recvTaskComplete
  cases w.recvTaskFind tid with
  | none => exact .refl w
  | some i =>
    dsimp only
    split_ifs with hopen
    · obtain ⟨fh, hfp⟩ := Option.isSome_iff_exists.mp hopen
      exact uses_recvTaskFinish hcoh io hfp
    · exact uses_clear hcoh io i

/-- An aborted task is cleared behind its CANCEL. -/
theorem uses_recvTaskAbort (hcoh : CoherentTable w.recv) (io : Io) (i : Slot) (why : Bytes) :
    Uses w (w.recvTaskAbort io i why) := by
  refine ((uses_sendTid w (by decide) _ _).trans (uses_print _ _)).clear hcoh ?_ io i
  funext j
  simp

/-- A refused one is cleared behind its REJECT. -/
theorem uses_recvTaskReject (hcoh : CoherentTable w.recv) (io : Io) (i : Slot) (why : Bytes) :
    Uses w (w.recvTaskReject io i why) := by
  refine ((uses_print w _).trans (uses_sendTid _ (by decide) _ _)).clear hcoh ?_ io i
  funext j
  simp

/-- A new task has neither file nor bitmap. -/
theorem uses_recvAnnounceIncoming (hcoh : CoherentTable w.recv) (io : Io) (tid : Nat) :
    Uses w (w.recvAnnounceIncoming io tid) := by
  unfold recvAnnounceIncoming
  cases hslot : w.recvTaskSlot with
  | none => exact (uses_print w _).trans (uses_sendTid _ (by decide) _ _)
  | some i =>
    -- a free slot has no file
    have hfp : (w.recv i).fp = none := by
      by_contra hne
      obtain ⟨fh, hfp⟩ := Option.ne_none_iff_exists'.mp hne
      exact absurd ((hcoh.activeBusy i fh hfp).symm.trans (recvTaskSlot_eq_some hslot)) (by simp)
    refine (uses_setRecv w i ?_ ?_).trans (uses_of_same rfl rfl rfl fun _ => ⟨rfl, rfl⟩)
    · rw [hfp]
      rfl
    · rw [hcoh.pendingBitmap i hfp]
      rfl

/-- INIT fills in names and size only. -/
theorem uses_recvFillInit (w : World) (f : InitFields) : Uses w (w.recvFillInit f) := by
  unfold recvFillInit
  cases w.recvInitBest with
  | none => exact .refl w
  | some i => exact uses_setRecv w i rfl rfl

/-- A write goes to the open file of the task. -/
theorem uses_fwrite {fh : FileHandle} (hfp : (w.recv i).fp = some fh) (offset : Nat)
    (data : Bytes) : Uses w (w.fwrite fh.path offset data) := by
  refine ⟨_, rfl, fun o ho => ?_⟩
  obtain ⟨reading, writing, block⟩ := o
  obtain rfl : writing = some fh.path := (ho.writing fh.path).mpr ⟨i, fh, hfp, rfl⟩
  refine ⟨⟨_, .single (.fwrite reading block fh.path offset data), ho⟩, fun path hout => ?_⟩
  have hne : path ≠ fh.path := fun h => hout (h ▸ ho.contained fh.path rfl)
  simp [fwrite, setDisk, emit, hne]

/-- A chunk is written to the open file, or its task aborted. -/
theorem uses_recvChunk (hcoh : CoherentTable w.recv) (io : Io) (tid offset : Nat) (data : Bytes) :
    Uses w (w.recvChunk io tid offset data) := by
  unfold recvChunk
  cases w.recvTaskFind tid with
  | none => exact .refl w
  | some i =>
    dsimp only
    cases hfp : (w.recv i).fp with
    | none => exact .refl w
    | some fh =>
      dsimp only
      split_ifs
      · exact uses_recvTaskAbort hcoh io i _
      · exact (uses_fwrite hfp offset _).trans
          (uses_recvTaskAbort (w := w.fwrite fh.path offset (io.fwritten data)) hcoh io i _)
      · refine (uses_fwrite hfp offset _).trans (uses_setRecv _ i ?_ ?_)
        · rw [show (w.fwrite fh.path offset (io.fwritten data)).recv i = w.recv i from rfl, hfp]
          rfl
        · -- marking a chunk leaves the bitmap its length
          rw [Option.map_map]
          refine congrFun (congrArg _ (funext fun b => ?_)) _
          exact length_fileRecvSpanMark b _ _
      · exact uses_recvTaskAbort hcoh io i _

/-! ### `/accept` -/

/-- No name that an INIT frame brought contains a NUL. -/
def PlainNames (r : Table) : Prop := ∀ i, 0 ∉ (r i).filename

/-- The base name of a C string is one. -/
theorem plain_baseName {raw : Bytes} (h : 0 ∉ raw) : 0 ∉ baseName raw := by
  obtain ⟨dir, hsplit, -⟩ := baseName_split raw
  exact fun hmem => h (hsplit ▸ List.mem_append_right dir hmem)

/-- The name a file gets has no NUL if the name in its INIT frame has none. -/
theorem Names.plain {name : Bytes} (hname : w.Names i name) (hplain : PlainNames w.recv) :
    0 ∉ name := by
  obtain ⟨base, hbase, hunique⟩ := hname.name
  have h0 : 0 ∉ base := by
    rw [fileBasenameSanitize_eq] at hbase
    split_ifs at hbase
    obtain rfl := Option.some.inj hbase
    intro hmem
    obtain ⟨c, hc, hzero⟩ := List.mem_map.mp hmem
    split_ifs at hzero
    · exact absurd hzero (by decide)
    · exact plain_baseName (hplain i) (hzero ▸ hc)
  obtain ⟨⟨k, rfl⟩, -, -⟩ := fileUniqueName_spec hunique
  unfold uniqueCandidate
  split_ifs
  · exact h0
  · simp only [List.mem_append, not_or]
    exact ⟨h0, by decide, fun h => absurd (mem_decimal h) (by decide), by decide⟩

/-- A name chosen by `/accept` is a path in the folder. -/
theorem Names.inDownloads {name : Bytes} (hname : w.Names i name) (hplain : PlainNames w.recv)
    (hpath : fileJoinPath fileDownloadDir name 512 = some path) : InDownloads path := by
  refine ⟨name, ?_, hname.component, hname.plain hplain⟩
  rw [fileJoinPath] at hpath
  split_ifs at hpath
  exact (Option.some.inj hpath).symm

/-- Before a transfer is accepted no bitmap is held. -/
theorem AwaitsUser.noBlock {i : Slot} (h : w.AwaitsUser tid i) (hcoh : CoherentTable w.recv)
    {o : Held} (ho : o.Of w.tasks) : o.block = none := by
  by_contra hblock
  obtain ⟨len, hlen⟩ := Option.ne_none_iff_exists'.mp hblock
  obtain ⟨j, b, hj, -⟩ := (ho.block len).mp hlen
  exact absurd ((hcoh.pendingBitmap j (h.noneOpen hcoh j)).symm.trans hj) (by simp)

/-- The task gets the bitmap that was asked for, if any. -/
theorem AwaitsUser.uses_asked {i : Slot} (h : w.AwaitsUser tid i) (hcoh : CoherentTable w.recv)
    {v : World} {t : RecvTask} (hasked : w.AskedBitmap i v t.bitmap) (hfp : t.fp = none) :
    Uses w (v.setRecv i t) := by
  have hidle : (w.tasks.recv i).fp = none := h.idle
  have hbare : (w.recv i).bitmap = none := hcoh.pendingBitmap i h.idle
  obtain ⟨bitmap, hbitmap⟩ : ∃ bitmap, bitmap = t.bitmap := ⟨_, rfl⟩
  rw [← hbitmap] at hasked
  cases hasked with
  | notYet => exact uses_setRecv w i (by rw [hfp, h.idle]) (by rw [← hbitmap])
  | refused len =>
    refine (uses_emit w fun o => .mallocFailed o len).trans (uses_setRecv _ i ?_ ?_)
    · rw [hfp]
      exact (congrArg _ hidle).symm
    · rw [← hbitmap]
      exact (congrArg _ hbare).symm
  | granted bitmap =>
    refine ⟨[.malloc bitmap.length true], rfl, fun o ho => ?_⟩
    obtain ⟨reading, writing, block⟩ := o
    obtain rfl : block = none := h.noBlock hcoh ho
    refine ⟨⟨_, .single (.malloc reading writing bitmap.length), ho.reading, fun path => ?_,
      fun len => ?_, ho.contained⟩, fun _ _ => rfl⟩
    · rw [ho.writing]
      refine exists_congr fun j => ?_
      by_cases hji : j = i
      · subst hji
        simp [hfp, hidle]
      · simp [hji]
    · constructor
      · intro hlen
        exact ⟨i, bitmap, by simp [← hbitmap], Option.some.inj hlen⟩
      · rintro ⟨j, b, hj, rfl⟩
        by_cases hji : j = i
        · subst hji
          obtain rfl : bitmap = b := by simpa [← hbitmap] using hj
          rfl
        · have hnone : (w.tasks.recv j).bitmap = none :=
            hcoh.pendingBitmap j (h.noneOpen hcoh j)
          simp [hji, hnone] at hj

/-- A refusal once the task has its name: no file is open, what is removed is in the folder, and
    the bitmap goes with the task. -/
theorem AwaitsUser.uses_refused {i : Slot} (h : w.AwaitsUser tid i) (hcoh : CoherentTable w.recv)
    (hplain : PlainNames w.recv) (io : Io) {v : World} {t : RecvTask}
    (hname : w.Names i t.saveName) (hfp : t.fp = none) (hasked : w.AskedBitmap i v t.bitmap)
    (why : Bytes) : Uses w ((v.setRecv i t).recvTaskReject io i why) := by
  have htasks := hasked.quiet.1
  refine (h.uses_asked hcoh hasked hfp).trans (((uses_print _ why).trans
    (uses_sendTid _ (by decide) _ _)).trans
    (uses_recvTaskClear _ io i ⟨fun _ j hji => ?_, fun _ j hji => ?_⟩ fun _ path hpath =>
      Or.inr ?_))
  · simpa [openPath, hji, htasks] using h.noneOpen hcoh j
  · simpa [hji, htasks] using hcoh.pendingBitmap j (h.noneOpen hcoh j)
  · exact hname.inDownloads hplain (by simpa using hpath)

/-- The bitmap is got, the file is created, the task has both, and ACCEPT is sent. -/
theorem AwaitsUser.uses_opened {i : Slot} (h : w.AwaitsUser tid i) (hcoh : CoherentTable w.recv)
    {saveName : Bytes} (hin : InDownloads path) (ok : Bool) :
    Uses w ((((w.emit (.malloc (w.recv i).bitmapNeed true)).fopenWrite path).setRecv i
      ((w.recv i).opened saveName path)).emit (.send (tidFrame msgFileAccept tid).encode ok)) := by
  refine Uses.trans ⟨[.malloc (w.recv i).bitmapNeed true, .fopen path],
    by simp [fopenWrite, setDisk, setRecv, emit], fun o ho => ?_⟩
    (uses_send _ ⟨_, (by decide : msgFileAccept ∈ clientTypes), rfl⟩ ok)
  obtain ⟨reading, writing, block⟩ := o
  obtain rfl : block = none := h.noBlock hcoh ho
  obtain rfl : writing = none := by
    by_contra hopen
    obtain ⟨p, rfl⟩ := Option.ne_none_iff_exists'.mp hopen
    obtain ⟨j, fh, hj, -⟩ := (ho.writing p).mp rfl
    exact absurd ((h.noneOpen hcoh j).symm.trans hj) (by simp)
  refine ⟨⟨_, .cons (.malloc reading none _) (.single (.fopen reading _ path hin)), ho.reading,
    fun p => ?_, fun len => ?_, fun p hp => ?_⟩, fun p hout => ?_⟩
  · constructor
    · rintro hp
      obtain rfl := Option.some.inj hp
      exact ⟨i, ⟨path, 0⟩, by simp [RecvTask.opened], rfl⟩
    · rintro ⟨j, fh, hj, rfl⟩
      by_cases hji : j = i
      · subst hji
        obtain rfl : (⟨path, 0⟩ : FileHandle) = fh := by simpa [RecvTask.opened] using hj
        rfl
      · have hnone : (w.tasks.recv j).fp = none := h.noneOpen hcoh j
        simp [hji, fopenWrite, hnone] at hj
  · constructor
    · intro hlen
      refine ⟨i, List.replicate (w.recv i).bitmapNeed 0, ?_, ?_⟩
      · simp [RecvTask.opened, RecvTask.bitmapNeed]
      · rw [List.length_replicate]
        exact Option.some.inj hlen
    · rintro ⟨j, b, hj, rfl⟩
      by_cases hji : j = i
      · subst hji
        obtain rfl : List.replicate (w.recv j).bitmapNeed 0 = b := by
          simpa [RecvTask.opened, RecvTask.bitmapNeed] using hj
        rw [List.length_replicate]
      · have hnone : (w.tasks.recv j).bitmap = none :=
          hcoh.pendingBitmap j (h.noneOpen hcoh j)
        simp [hji, fopenWrite, hnone] at hj
  · obtain rfl := Option.some.inj hp
    exact hin
  · have hne : p ≠ path := fun h => hout (h ▸ hin)
    simp [fopenWrite, setDisk, emit, setRecv, hne]

/-- `/accept` allocates the bitmap, opens the file, and gives both back where it fails. -/
theorem uses_acceptTid (hcoh : CoherentTable w.recv) (hplain : PlainNames w.recv) (io : Io)
    (tid : Nat) : Uses w (w.acceptTid io tid).1 := by
  have hbranch := w.acceptTid_branch io tid
  generalize w.acceptTid io tid = res at hbranch ⊢
  cases hbranch with
  | unknown hfind => exact uses_noSuchTransfer w tid
  | early i text hfind hnot htext => exact uses_print w text
  | unnamed i why h hown hwhy => exact uses_recvTaskReject hcoh io i why
  | uncreated i v t why h hown hname htid hfp hasked hwhy =>
    exact h.uses_refused hcoh hplain io hname hfp hasked why
  | lost i saveName path h hown hname hpath =>
    -- file and bitmap, which were just got, go again
    refine (h.uses_opened hcoh (hname.inDownloads hplain hpath) false).trans
      (uses_recvTaskClear _ io i ⟨fun _ j hji => ?_, fun _ j hji => ?_⟩ fun _ p hp =>
        Or.inl ?_)
    · simpa [openPath, hji] using h.noneOpen hcoh j
    · simpa [hji] using hcoh.pendingBitmap j (h.noneOpen hcoh j)
    · obtain rfl : path = p := by simpa [RecvTask.opened, hpath] using hp
      simp [openPath, RecvTask.opened]
  | accepted i saveName path h hown hname hpath =>
    exact (h.uses_opened hcoh (hname.inDownloads hplain hpath) true).trans (uses_print _ _)

/-- `/reject` clears a pending task. -/
theorem uses_rejectTid (hcoh : CoherentTable w.recv) (io : Io) (tid : Nat) :
    Uses w (w.rejectTid io tid).1 := by
  unfold rejectTid
  cases w.recvTaskFind tid with
  | none => exact uses_noSuchTransfer w tid
  | some i =>
    have hsent (ok : Bool) : Uses w (w.emit (.send (tidFrame msgFileReject tid).encode ok)) :=
      uses_send w ⟨_, (by decide : msgFileReject ∈ clientTypes), rfl⟩ ok
    dsimp only
    split_ifs
    · exact uses_print w _
    · rw [sendTid_eq]
      cases io.sendOk with
      | false => exact hsent false
      | true => exact ((hsent true).trans (uses_print _ _)).clear hcoh rfl io i

/-! ### Signals, `/cancel`, errors, reset -/

/-- An acceptance opens nothing. -/
theorem uses_accepted (w : World) (tid : Nat) : Uses w (w.accepted tid) := by
  unfold accepted
  split_ifs
  · exact uses_setSend w rfl
  · exact .refl w

/-- A rejection closes the file of the send task. -/
theorem uses_rejected (w : World) (tid : Nat) : Uses w (w.rejected tid) := by
  unfold rejected
  split_ifs
  · exact uses_sendTaskClear w
  · exact .refl w

/-- A cancellation clears the task it names. -/
theorem uses_cancelled (hcoh : CoherentTable w.recv) (io : Io) (tid : Nat) :
    Uses w (w.cancelled io tid) := by
  unfold cancelled
  split_ifs
  · exact uses_sendTaskClear w
  · cases w.recvTaskFind tid with
    | none => exact .refl w
    | some i => exact uses_clear hcoh io i

/-- So does `/cancel`. -/
theorem uses_cancelTid (hcoh : CoherentTable w.recv) (io : Io) (tid : Nat) :
    Uses w (w.cancelTid io tid).1 := by
  have hsent (ok : Bool) : Uses w (w.emit (.send (tidFrame msgFileCancel tid).encode ok)) :=
    uses_send w ⟨_, (by decide : msgFileCancel ∈ clientTypes), rfl⟩ ok
  unfold cancelTid
  rw [sendTid_eq]
  split_ifs
  · -- the client's own transfer
    cases io.sendOk with
    | false => exact hsent false
    | true => exact ((hsent true).trans (uses_sendTaskClear _)).trans (uses_print _ _)
  · cases w.recvTaskFind tid with
    | none => exact uses_noSuchTransfer w tid
    | some i =>
      cases io.sendOk with
      | false => exact hsent false
      | true => exact ((hsent true).clear hcoh rfl io i).trans (uses_print _ _)

/-- The send task goes first, whatever comes next. -/
theorem uses_ifSendTaskClear (w : World) :
    Uses w (if w.send.busy then w.sendTaskClear else w) ∧
      (if w.send.busy then w.sendTaskClear else w).recv = w.recv := by
  split_ifs
  · exact ⟨uses_sendTaskClear w, funext fun i => by simp⟩
  · exact ⟨.refl w, rfl⟩

/-- An error ends a send task that waits for its id. -/
theorem uses_fileHandleError (hcoh : CoherentTable w.recv) (io : Io) (code : Nat) :
    Uses w (w.fileHandleError io code) := by
  unfold fileHandleError
  by_cases h200 : code = errNoSuchUser
  · rw [if_pos h200]
    split_ifs
    · exact uses_sendTaskClear w
    · exact .refl w
  rw [if_neg h200]
  by_cases h300 : code = errTransferState
  swap
  · rw [if_neg h300]
    exact .refl w
  rw [if_pos h300]
  dsimp only
  obtain ⟨huses, hrecv⟩ := w.uses_ifSendTaskClear
  generalize (if w.send.busy then w.sendTaskClear else w) = w1 at huses hrecv ⊢
  cases w1.recvTaskActive with
  | none => exact huses
  | some i => exact huses.clear hcoh hrecv io i

/-- Clearing slots one by one. -/
theorem uses_resetRecv_foldl (hcoh : CoherentTable w.recv) (io : Slot → Io) (l : List Slot) :
    Uses w (l.foldl (resetRecv io) w) := by
  induction l generalizing w with
  | nil => exact .refl w
  | cons i l ih =>
    rw [List.foldl_cons]
    by_cases hbusy : (w.recv i).busy = true
    · rw [resetRecv, if_pos hbusy]
      refine (uses_clear hcoh (io i) i).trans (ih ?_)
      simp only [recv, tasks_recvTaskClear]
      exact hcoh.update i (.of_pending rfl rfl rfl rfl) (by simp [RecvTask.zero])
    · rw [resetRecv, if_neg hbusy]
      exact ih hcoh

/-- The reset clears every task. -/
theorem uses_fileResetAll (hcoh : CoherentTable w.recv) (io : Slot → Io) :
    Uses w (w.fileResetAll io) := by
  obtain ⟨huses, hrecv⟩ := w.uses_ifSendTaskClear
  exact huses.trans (uses_resetRecv_foldl (hrecv ▸ hcoh) io _)

/-- An announcement does what its kind says. -/
theorem uses_fileHandleAnnouncement (hcoh : CoherentTable w.recv) (io : Io) (text : Bytes) :
    Uses w (w.fileHandleAnnouncement io text) := by
  unfold fileHandleAnnouncement
  cases fileParseAnnouncement text with
  | none => exact .refl w
  | some res =>
    obtain ⟨kind, tid⟩ := res
    dsimp only
    cases kind with
    | sendPending =>
      rw [announced]
      split_ifs
      · exact uses_setSend w rfl
      · exact .refl w
    | recvPending => exact uses_recvAnnounceIncoming hcoh io tid
    | accepted => exact uses_accepted w tid
    | rejected => exact uses_rejected w tid
    | cancelled => exact uses_cancelled hcoh io tid
    | cancelledDisc => exact uses_cancelled hcoh io tid
    | complete =>
      rw [announced]
      split_ifs
      · exact uses_sendTaskClear w
      · exact uses_recvTaskComplete hcoh io tid

/-- A control frame does what its type says. -/
theorem uses_controlFrame (hcoh : CoherentTable w.recv) (io : Io) (type : UInt8) (tid : Nat) :
    Uses w (w.controlFrame io type tid) := by
  unfold controlFrame
  split_ifs
  · exact uses_accepted w tid
  · exact uses_rejected w tid
  · exact uses_cancelled hcoh io tid
  · exact uses_recvTaskComplete hcoh io tid
  · exact .refl w

/-- A frame of the file protocol is INIT, CHUNK or a control frame. -/
theorem uses_fileFrame (hcoh : CoherentTable w.recv) (io : Io) (type : UInt8) (payload : Bytes) :
    Uses w (w.fileFrame io type payload) := by
  by_cases h4 : payload.length = 4
  · rw [fileFrame_control w io type h4]
    exact uses_controlFrame hcoh io type _
  by_cases hinit : type = msgFileInit
  · subst hinit
    rw [fileFrame_init w io h4]
    cases initFields payload with
    | none => exact .refl w
    | some f => exact uses_recvFillInit w f
  by_cases hchunk : type = msgFileChunk ∧ 12 ≤ payload.length
  · obtain ⟨rfl, h12⟩ := hchunk
    rw [fileFrame_chunk w io h12]
    exact uses_recvChunk hcoh io _ _ _
  · rw [fileFrame_other w io h4 hinit fun h => by
      by_contra hlen
      exact hchunk ⟨h, by omega⟩]
    exact .refl w

/-! ### The sending side -/

/-- The send task gets the file that was opened for it. -/
theorem uses_submitted (w : World) (hfp : w.send.fp = none) {t : SendTask} {fh : FileHandle}
    (ht : t.fp = some fh) : Uses w ((w.emit (.fopenRead fh.path)).setSend t) := by
  refine ⟨[.fopenRead fh.path], rfl, fun o ho => ?_⟩
  obtain ⟨reading, writing, block⟩ := o
  obtain rfl : reading = none := by
    rw [show reading = _ from ho.reading, hfp]
    rfl
  refine ⟨⟨_, .single (.fopenRead writing block fh.path), ?_, ho.writing, ho.block,
    ho.contained⟩, fun _ _ => rfl⟩
  show some fh.path = t.fp.map FileHandle.path
  rw [ht]
  rfl

/-- A file that cannot be sent is closed again at once. -/
theorem uses_reopened (w : World) (hfp : w.send.fp = none) (path : Bytes) :
    Uses w ((w.emit (.fopenRead path)).emit (.fclose path true)) := by
  refine ⟨[.fopenRead path, .fclose path true], by simp [emit], fun o ho => ?_⟩
  obtain ⟨reading, writing, block⟩ := o
  obtain rfl : reading = none := by
    rw [show reading = _ from ho.reading, hfp]
    rfl
  exact ⟨⟨_, .cons (.fopenRead writing block path) (.single (.fcloseRead writing block path true)),
    ho.reading, ho.writing, ho.block, ho.contained⟩, fun _ _ => rfl⟩

/-- The INIT frame of `/sendfile` is a frame of the client. -/
theorem isClientFrame_init {target filename : Bytes} {size : Nat}
    (htarget : target.length < maxUsernameLen) (hfilename : filename.length < maxFilenameLen)
    (hsize : size < 2 ^ 63) : IsClientFrame (initFrame target filename size) := by
  have hdigits : (decimal size).length ≤ 19 := length_decimal_le (by decide) (by omega)
  simp only [maxUsernameLen, maxFilenameLen] at htarget hfilename
  refine ⟨⟨msgFileInit, _, ?_⟩, (by decide : msgFileInit ∈ clientTypes), rfl⟩
  simp only [List.length_append, List.length_singleton]
  omega

/-- `/sendfile` opens the file, and closes it where it does not begin a transfer. -/
theorem uses_fileCmdSendfile (hsend : SendOk w.send) (io : SendfileIo) (line : Bytes) :
    Uses w (w.fileCmdSendfile io line).1 := by
  have hfp : w.send.busy = false → w.send.fp = none := by
    intro hidle
    rw [hsend.idle hidle]
    rfl
  apply w.fileCmdSendfile_cases (P := fun res => Uses w res.1)
  case refused => exact fun _ _ text _ => uses_print w text
  case givenUp =>
    exact fun _ hidle filename text _ =>
      (uses_reopened w (hfp hidle) filename).trans (uses_print _ text)
  case submitted =>
    intro target filename h
    have hlong := io.fsizeLong
    have hsize : io.fsize.toNat < 2 ^ 63 := by omega
    obtain ⟨htarget, hfilename⟩ := commandsParseSendfile_length h.parse
    have hsubmit : Uses w ((w.emit (.fopenRead filename)).setSend
        (SendTask.submitted target filename io.fsize.toNat)) :=
      uses_submitted w (hfp h.idle) (show _ = some ⟨filename, 0⟩ from rfl)
    have hinit (v : World) (ok : Bool) :
        Uses v (v.emit (.send (initFrame target filename io.fsize.toNat) ok)) :=
      uses_send v (isClientFrame_init htarget hfilename hsize) ok
    unfold sendInit
    dsimp only
    rw [protocolBuildText3_init h.parse hsize]
    dsimp only [connSendAll]
    cases io.sendOk with
    | false => exact (hsubmit.trans (hinit _ false)).trans (uses_sendTaskClear _)
    | true => exact (hsubmit.trans (hinit _ true)).trans (uses_print _ _)

/-- The progress is shown, and the percentage noted in the send task. -/
theorem uses_showProgress (w : World) : Uses w w.showProgress := by
  unfold showProgress
  dsimp only
  split_ifs
  · exact (uses_displayIncoming w _).trans (uses_setSend _ rfl)
  · exact .refl w

/-- The end of the tick changes the state of the send task only. -/
theorem uses_tickEnd (w : World) : Uses w w.tickEnd := by
  unfold tickEnd
  split_ifs
  · exact uses_setSend w rfl
  · exact .refl w

/-- A chunk is a frame. -/
theorem isClientFrame_nextChunk (t : SendTask) (io : TickIo) : IsClientFrame (t.nextChunk io) :=
  ⟨⟨msgFileChunk, chunkPayload t.tid (t.sent, t.nextData io),
    fits_of_length_le ((List.length_take_le _ _).trans (min_le_left _ _))⟩,
    (by decide : msgFileChunk ∈ clientTypes), rfl⟩

/-- The rounds of a tick. -/
theorem uses_tickLoop (io : TickIo) (fuel i : Nat) (h : AtChunk w.send) :
    Uses w (tickLoop io fuel i w).1 := by
  induction fuel generalizing i w with
  | zero => exact uses_tickEnd w
  | succ fuel ih =>
    rw [tickLoop]
    by_cases hmore : w.send.sent < w.send.size
    swap
    · rw [if_neg hmore]
      exact uses_tickEnd w
    have hchunk (ok : Bool) : Uses w (w.emit (.send (w.send.nextChunk io) ok)) :=
      uses_send w (isClientFrame_nextChunk w.send io) ok
    rw [if_pos hmore, tickChunk_next h hmore]
    split_ifs
    · -- the file got shorter
      exact ((uses_print w _).trans (uses_sendTid _ (by decide) _ _)).trans (uses_sendTaskClear _)
    · have hset : Uses (w.emit (.send (w.send.nextChunk io) true))
          ((w.emit (.send (w.send.nextChunk io) true)).setSend
            (w.send.advanced w.send.nextLen)) := by
        refine uses_setSend _ ?_
        show (w.send.fp.map _).map _ = w.send.fp.map _
        rw [Option.map_map]
        rfl
      have hround := ((hchunk true).trans hset).trans (uses_showProgress _)
      obtain ⟨mark, hmark⟩ := ((w.emit (.send (w.send.nextChunk io) true)).setSend
        (w.send.advanced w.send.nextLen)).send_showProgress
      refine hround.trans (ih (i + 1) ?_)
      rw [hmark]
      exact h.advanced mark
    · exact (hchunk false).trans (uses_sendTaskClear _)

/-- The tick reads from the open file, and clears the task where it ends or fails. -/
theorem uses_fileSendTick (hsend : SendOk w.send) (io : TickIo) :
    Uses w (w.fileSendTick io).1 := by
  unfold fileSendTick
  by_cases hbusy : w.send.busy = true
  swap
  · rw [if_pos hbusy]
    exact .refl w
  rw [if_neg (not_not_intro hbusy)]
  by_cases hidle : w.send.state ≠ .active ∧ w.send.state ≠ .done
  · rw [if_pos hidle]
    exact .refl w
  rw [if_neg hidle]
  by_cases hdone : w.send.state = .done
  · have hcomplete (ok : Bool) :
        Uses w (w.emit (.send (tidFrame msgFileComplete w.send.tid).encode ok)) :=
      uses_send w ⟨_, (by decide : msgFileComplete ∈ clientTypes), rfl⟩ ok
    rw [if_pos hdone, sendTid_eq]
    cases io.sendOk 0 with
    | false => exact hcomplete false
    | true => exact (hcomplete true).trans (uses_setSend _ rfl)
  · have hactive : w.send.state = .active := by
      by_contra hne
      exact hidle ⟨hne, hdone⟩
    rw [if_neg hdone]
    exact uses_tickLoop io _ 0 (hsend.atChunk hbusy hactive)

end World

/-! ### The whole module -/

open World

/-- What INIT frames bring has no NUL, so no name ever gets one. -/
theorem PlainNames.step {w : World} (h : PlainNames w.recv) (e : FileEvent) :
    PlainNames (fileStep w e).recv := by
  have hupdate {r : Table} (hr : PlainNames r) {i : Slot} {t : RecvTask} (ht : 0 ∉ t.filename) :
      PlainNames (Function.update r i t) := by
    intro j
    by_cases hji : j = i
    · subst hji
      simpa using ht
    · simpa [hji] using hr j
  have hs := (fileStep_spec w e).table
  generalize (fileStep w e).recvSeq = seq' at hs
  generalize (fileStep w e).recv = r' at hs ⊢
  cases hs with
  | keep => exact h
  | clear _ i _ _ => exact hupdate h (by simp [RecvTask.zero])
  | reset io r' hr =>
    intro i
    rw [hr i]
    split_ifs
    · simp [RecvTask.zero]
    · exact h i
  | announce _ _ tid i _ _ => exact hupdate h (by simp [RecvTask.announced, RecvTask.zero])
  | fill payload io f i hfields _ _ _ =>
    exact hupdate h (initFields_eq_some.mp hfields).1.filename_nul
  | opened _ i saveName path _ _ _ _ _ _ _ => exact hupdate h (h i)
  | written _ i fh offset len _ _ _ _ => exact hupdate h (h i)

/-- **Step specification** for the outside: every call keeps to the protocol. -/
theorem uses_fileStep {w : World} (hcoh : Coherent w) (hsend : SendOk w.send)
    (hplain : PlainNames w.recv) (e : FileEvent) : Uses w (fileStep w e) := by
  have hcoh := hcoh.toCoherentTable
  cases e with
  | sendfile line io => exact uses_fileCmdSendfile hsend io line
  | accept line io =>
    rw [fileStep, fileCmdAccept]
    cases commandsParseTidArg (line.drop 7) with
    | none => exact uses_print w _
    | some tid => exact uses_acceptTid hcoh hplain io tid
  | reject line io =>
    rw [fileStep, fileCmdReject]
    cases commandsParseTidArg (line.drop 7) with
    | none => exact uses_print w _
    | some tid => exact uses_rejectTid hcoh io tid
  | cancel line io =>
    rw [fileStep, fileCmdCancel]
    cases commandsParseTidArg (line.drop 7) with
    | none => exact uses_print w _
    | some tid => exact uses_cancelTid hcoh io tid
  | announcement text io => exact uses_fileHandleAnnouncement hcoh io text
  | frame type payload io => exact uses_fileFrame hcoh io type payload
  | error code io => exact uses_fileHandleError hcoh io code
  | tick io => exact uses_fileSendTick hsend io
  | reset io => exact uses_fileResetAll hcoh io

/-! ### The client -/

/-- What holds of the client at every moment: its tasks are in order, its log keeps to the protocol
    and leaves held what the tasks hold, and the files outside the folder are those of the
    start. -/
structure KeepsOutside (disk : Bytes → Option Bytes) (w : World) : Prop where
  coherent : Coherent w
  send : SendOk w.send
  plain : PlainNames w.recv
  traced : ∃ o, Run OutsideStep .nothing w.log o ∧ o.Of w.tasks
  disk : ∀ path, ¬ InDownloads path → w.disk path = disk path

section KeepsOutside

variable {disk : Bytes → Option Bytes} {w w' : World}

/-- Calls that use their resources keep the log legal. -/
theorem KeepsOutside.uses (h : KeepsOutside disk w) (hu : Uses w w') (hcoh : Coherent w')
    (hsend : SendOk w'.send) (hplain : PlainNames w'.recv) : KeepsOutside disk w' := by
  obtain ⟨effects, hlog, hrun⟩ := hu
  obtain ⟨o, htrace, ho⟩ := h.traced
  obtain ⟨⟨o', htrace', ho'⟩, hdisk⟩ := hrun o ho
  refine ⟨hcoh, hsend, hplain, ⟨o', ?_, ho'⟩, fun path hout => (hdisk path hout).trans
    (h.disk path hout)⟩
  rw [hlog]
  exact htrace.append htrace'

/-- **Step lemma** for calls of the file module. -/
theorem KeepsOutside.step (h : KeepsOutside disk w) (e : FileEvent) :
    KeepsOutside disk (fileStep w e) :=
  h.uses (uses_fileStep h.coherent h.send h.plain e) (h.coherent.step e)
    (h.send.move (sendMove_fileStep h.send e)) (PlainNames.step h.plain e)

/-- **Step lemma** for actions. -/
theorem KeepsOutside.act (h : KeepsOutside disk w) {Q : Io → Prop} {a : Action}
    (ha : a.Allowed Q) : KeepsOutside disk (w.act a) := by
  obtain ⟨htable, hsend⟩ := h.coherent
  cases a with
  | file e => exact h.step e
  | print text => exact h.uses (uses_print w text) ⟨htable, hsend⟩ h.send h.plain
  | incoming text => exact h.uses (uses_displayIncoming w text) ⟨htable, hsend⟩ h.send h.plain
  | send frame ok =>
    have hframe : IsClientFrame frame.encode := ⟨frame, List.mem_append_left _ ha, rfl⟩
    exact h.uses (uses_send w hframe ok) ⟨htable, hsend⟩ h.send h.plain

/-- At the start nothing is open. -/
theorem KeepsOutside.init (disk : Bytes → Option Bytes) :
    KeepsOutside disk (World.init disk) where
  coherent := (Reachable.init disk).coherent
  send := .zero
  plain := by simp [PlainNames, World.init, World.recv, RecvTask.zero]
  traced := by
    refine ⟨_, .nil _, rfl, fun path => iff_of_false (by simp [Held.nothing]) ?_,
      fun len => iff_of_false (by simp [Held.nothing]) ?_, by simp [Held.nothing]⟩
    · rintro ⟨i, fh, hfp, -⟩
      exact absurd hfp (by simp [World.init, RecvTask.zero])
    · rintro ⟨i, b, hb, -⟩
      exact absurd hb (by simp [World.init, RecvTask.zero])
  disk _ _ := rfl

/-- **Every moment of every session.** -/
theorem keepsOutside_of_console {env : Surroundings} {events : List ConsoleEvent}
    (hw : w ∈ env.world events) : KeepsOutside env.disk w := by
  have hall (e : FileEvent) : e.AllIo fun _ => True := by
    cases e <;> simp [FileEvent.AllIo]
  have hevents (e : ConsoleEvent) : e.AllIo fun _ => True := by
    unfold ConsoleEvent.AllIo
    split <;> trivial
  have hdoes := does_console (Q := fun _ => True) ⟨fun _ => trivial, fun _ => trivial⟩
    (fun e _ => hevents e) hw
  exact hdoes.invariant (fun v a ha hv => hv.act ha) (.init env.disk)

end KeepsOutside

/-- Tasks without a file and without a bitmap hold nothing. -/
theorem Held.Of.eq_nothing {o : Held} {t : Tasks} (h : o.Of t) (hsend : t.send.fp = none)
    (hrecv : ∀ i, (t.recv i).fp = none) (hbitmap : ∀ i, (t.recv i).bitmap = none) :
    o = .nothing := by
  obtain ⟨reading, writing, block⟩ := o
  obtain rfl : reading = none := by
    rw [show reading = _ from h.reading, hsend]
    rfl
  obtain rfl : writing = none := by
    by_contra hopen
    obtain ⟨path, rfl⟩ := Option.ne_none_iff_exists'.mp hopen
    obtain ⟨i, fh, hfp, -⟩ := (h.writing path).mp rfl
    exact absurd ((hrecv i).symm.trans hfp) (by simp)
  obtain rfl : block = none := by
    by_contra hblock
    obtain ⟨len, rfl⟩ := Option.ne_none_iff_exists'.mp hblock
    obtain ⟨i, b, hb, -⟩ := (h.block len).mp rfl
    exact absurd ((hbitmap i).symm.trans hb) (by simp)
  rfl

/-- `file_reset_all` leaves no send task. -/
theorem World.idle_send_fileResetAll (w : World) (io : Slot → Io) :
    (w.fileResetAll io).send.busy = false := by
  rw [fileResetAll, World.send, (resetRecv_foldl io _ _).1]
  split_ifs with hbusy
  · simp [SendTask.zero]
  · simpa using hbusy

/-- Behind `file_reset_all` nothing is held. -/
theorem KeepsOutside.closed {disk : Bytes → Option Bytes} {w : World} (h : KeepsOutside disk w)
    (io : Slot → Io) : Run OutsideStep .nothing (w.fileResetAll io).log .nothing := by
  have hreset := h.step (.reset io)
  obtain ⟨o, hrun, ho⟩ := hreset.traced
  have hsend : (fileStep w (.reset io)).send.fp = none := by
    rw [hreset.send.idle (w.idle_send_fileResetAll io)]
    rfl
  have hrecv (i : Slot) : ((fileStep w (.reset io)).recv i).fp = none := by
    by_contra hne
    obtain ⟨fh, hfp⟩ := Option.ne_none_iff_exists'.mp hne
    have hbusy := hreset.coherent.activeBusy i fh hfp
    exact absurd (hbusy.symm.trans (w.idle_fileResetAll io i)) (by simp)
  obtain rfl := ho.eq_nothing hsend hrecv fun i => hreset.coherent.pendingBitmap i (hrecv i)
  exact hrun

/-- **No handle and no memory is lost.** Whatever the server sends, the user types and the outside
    answers, at every moment of a session, as long as no frame is read past the bytes that were
    received: nothing is closed that is not open, nothing is written but into the open file, one
    file at most is open for reading and one for writing, one bitmap at most is allocated and none
    is released twice, and these are the ones that the tasks hold; behind `file_reset_all` nothing
    is held. -/
theorem console_keeps_outside {env : Surroundings} {events : List ConsoleEvent} {w : World}
    (hw : w ∈ env.world events) :
    (∃ o, Run OutsideStep .nothing w.log o ∧ o.Of w.tasks) ∧
      ∀ io, Run OutsideStep .nothing (w.fileResetAll io).log .nothing := by
  have hkeeps := keepsOutside_of_console hw
  exact ⟨hkeeps.traced, hkeeps.closed⟩

theorem console_keeps_outside_acceptance :
    ∃ w ∈ eve.world acceptance, w.openPath 0 = some (utf8 "downloads/b") ∧
      (∃ o, Run OutsideStep .nothing w.log o ∧ o.Of w.tasks) ∧
        ∀ io, Run OutsideStep .nothing (w.fileResetAll io).log .nothing := by
  obtain ⟨w, hw, hopen⟩ := exists_acceptance
  exact ⟨w, hw, hopen, console_keeps_outside hw⟩

/-- What is open for writing was opened in the folder. -/
theorem OutsideStep.contained {o o' : Held} {x : Effect} (h : OutsideStep o x o')
    (ho : ∀ path, o.writing = some path → InDownloads path) :
    ∀ path, o'.writing = some path → InDownloads path := by
  cases h with
  | fopen reading block path hpath =>
    intro p hp
    exact Option.some.inj hp ▸ hpath
  | fcloseWrite => simp
  | print => exact ho
  | incoming => exact ho
  | send => exact ho
  | fopenRead => exact ho
  | fwrite => exact ho
  | fcloseRead => exact ho
  | remove => exact ho
  | malloc => exact ho
  | mallocFailed => exact ho
  | free => exact ho

/-- A step changes no file but one of the folder. -/
theorem OutsideStep.changes {o o' : Held} {x : Effect} (h : OutsideStep o x o')
    (ho : ∀ path, o.writing = some path → InDownloads path) {path : Bytes}
    (hx : x.changes = some path) : InDownloads path := by
  cases h with
  | fopen reading block path hpath => exact Option.some.inj hx ▸ hpath
  | fwrite reading block path offset data => exact ho _ hx
  | remove reading block path ok hpath => exact Option.some.inj hx ▸ hpath
  | print => exact absurd hx (by simp [Effect.changes])
  | incoming => exact absurd hx (by simp [Effect.changes])
  | send => exact absurd hx (by simp [Effect.changes])
  | fopenRead => exact absurd hx (by simp [Effect.changes])
  | fcloseRead => exact absurd hx (by simp [Effect.changes])
  | fcloseWrite => exact absurd hx (by simp [Effect.changes])
  | malloc => exact absurd hx (by simp [Effect.changes])
  | mallocFailed => exact absurd hx (by simp [Effect.changes])
  | free => exact absurd hx (by simp [Effect.changes])

/-- **Nothing outside the download folder changes**, as long as no frame is read past the bytes
    that were received.  Every file that a session creates, writes or removes lies directly in the
    folder, under a name of one component without a NUL; all other files are those of the start. -/
theorem console_changes_downloads {env : Surroundings} {events : List ConsoleEvent} {w : World}
    (hw : w ∈ env.world events) :
    (∀ x ∈ w.log, ∀ path, x.changes = some path → InDownloads path) ∧
      ∀ path, ¬ InDownloads path → w.disk path = env.disk path := by
  have hkeeps := keepsOutside_of_console hw
  refine ⟨fun x hx path hchanges => ?_, hkeeps.disk⟩
  obtain ⟨o, hrun, -⟩ := hkeeps.traced
  obtain ⟨s, t, hopen, hstep⟩ := hrun.of_mem
    (P := fun o : Held => ∀ path, o.writing = some path → InDownloads path)
    (fun _ _ _ hs hstep => hstep.contained hs) (by simp [Held.nothing]) hx
  exact hstep.changes hopen hchanges

theorem console_changes_downloads_acceptance :
    ∃ w ∈ eve.world acceptance, w.openPath 0 = some (utf8 "downloads/b") ∧
      (∀ x ∈ w.log, ∀ path, x.changes = some path → InDownloads path) ∧
        ∀ path, ¬ InDownloads path → w.disk path = none := by
  obtain ⟨w, hw, hopen⟩ := exists_acceptance
  exact ⟨w, hw, hopen, console_changes_downloads hw⟩

end TCPClient
