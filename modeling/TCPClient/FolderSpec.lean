import TCPClient.ReceivedFile
import TCPClient.Lib.Folder

namespace TCPClient

open Octets Cover

/-!
# What one event does to the folder of received files

`FolderStep` lists it: a file is created, written, discarded or kept, and only the file of the
open task; `fileStep_folder` goes through the events.  Along the way the log is watched for the
names it changes and for the line that reports a file as saved.
-/

/-- The name under which an effect changes a file. -/
def Effect.changes : Effect → Option Bytes
  | .fopen path | .fwrite path _ _ | .remove path _ => some path
  | _ => none

/-- The start of the line that reports the file of a transfer as saved. -/
def savedHead (tid : Nat) : Bytes := utf8 "文件 #" ++ (decimal tid ++ utf8 " 接收完成，已保存")

/-- The effect reports the file of a transfer as saved. -/
def Effect.Reports (tid : Nat) : Effect → Prop
  | .print text => savedHead tid <+: text
  | _ => False

/-- A line that reports no file as saved. -/
def Silent (text : Bytes) : Prop := ∀ tid, ¬ savedHead tid <+: text

/-- The effect changes no other name, and reports nothing. -/
def Effect.Near (path : Option Bytes) (x : Effect) : Prop :=
  (∀ p, x.changes = some p → path = some p) ∧ ∀ tid, ¬ x.Reports tid

/-- The calls to `remove` an event makes take existing files away. -/
def FileEvent.RemovesWork : FileEvent → Prop
  | .accept _ io | .reject _ io | .cancel _ io | .announcement _ io | .frame _ _ io
  | .error _ io => io.removeOk = true
  | .reset io => ∀ i, (io i).removeOk = true
  | _ => True

/-! ### Lines -/

/-- A line that starts with another text of that length reports nothing, whatever follows. -/
theorem silent_append {head : Bytes} (hlen : (utf8 "文件 #").length ≤ head.length)
    (h : ¬ utf8 "文件 #" <+: head) (rest : Bytes) : Silent (head ++ rest) := by
  intro tid hsaved
  have hfile : utf8 "文件 #" <+: head ++ rest := (List.prefix_append _ _).trans hsaved
  exact h (List.prefix_of_prefix_length_le hfile (List.prefix_append _ _) hlen)

/-- Every report starts with the same word, so a line that does not is none. -/
theorem silent_lit {text : Bytes} (h : ¬ utf8 "文件 #" <+: text) : Silent text :=
  fun _ hsaved => h ((List.prefix_append _ _).trans hsaved)

/-- The first byte alone may say so. -/
theorem silent_cons {b : UInt8} (h : b ≠ 0xE6) {rest : Bytes} : Silent (b :: rest) := by
  intro tid hsaved
  exact h (List.cons_prefix_cons.mp hsaved).1.symm

/-- What stands behind the id tells the lines of `recv_task_finish` apart. -/
theorem silent_incomplete (tid : Nat) (rest : Bytes) :
    Silent (utf8 "文件 #" ++ (decimal tid ++ (utf8 " 不完整（" ++ rest))) := by
  rintro tid' ⟨s, hs⟩
  -- both lines give an id and a space; the characters behind the space differ
  simp only [savedHead, List.append_assoc] at hs
  have hs := List.append_cancel_left hs
  have hdigits : ∀ (n : Nat) (t : Bytes), (decimal n ++ (32 :: t)).takeWhile (IsDigit ·) =
      decimal n := by
    intro n t
    rw [List.takeWhile_append_of_pos fun b hb => by simpa using mem_decimal hb,
      List.takeWhile_cons_of_neg (by decide), List.append_nil]
  have hsaved : utf8 " 接收完成，已保存" ++ s = 32 :: (utf8 "接收完成，已保存" ++ s) := rfl
  have hpart : utf8 " 不完整（" ++ rest = 32 :: (utf8 "不完整（" ++ rest) := rfl
  rw [hsaved, hpart] at hs
  have hid := congrArg (List.takeWhile (IsDigit ·)) hs
  rw [hdigits, hdigits] at hid
  rw [hid] at hs
  have hhead := congrArg List.head? (List.cons.inj (List.append_cancel_left hs)).2
  have hfull : (utf8 "接收完成，已保存" ++ s).head? = some 0xE6 := rfl
  have hshort : (utf8 "不完整（" ++ rest).head? = some 0xE4 := rfl
  rw [hfull, hshort] at hhead
  exact absurd hhead (by decide)

namespace World

/-! ### What is added to the log -/

/-- The log has grown by effects with a property. -/
def Adds (P : Effect → Prop) (w w' : World) : Prop :=
  ∃ new, w'.log = w.log ++ new ∧ ∀ x ∈ new, P x

theorem Adds.refl (P : Effect → Prop) (w : World) : Adds P w w := ⟨[], by simp, by simp⟩

theorem Adds.trans {P : Effect → Prop} {w1 w2 w3 : World} (h : Adds P w1 w2)
    (h' : Adds P w2 w3) : Adds P w1 w3 := by
  obtain ⟨new, hlog, hnew⟩ := h
  obtain ⟨new', hlog', hnew'⟩ := h'
  refine ⟨new ++ new', by rw [hlog', hlog, List.append_assoc], fun x hx => ?_⟩
  exact (List.mem_append.mp hx).elim (hnew x) (hnew' x)

/-- What is added may be described more loosely. -/
theorem Adds.mono {P Q : Effect → Prop} {w w' : World} (h : Adds P w w') (hPQ : ∀ x, P x → Q x) :
    Adds Q w w' := by
  obtain ⟨new, hlog, hnew⟩ := h
  exact ⟨new, hlog, fun x hx => hPQ x (hnew x hx)⟩

/-- An effect that changes no name changes none but `path`. -/
theorem Adds.wider {w w' : World} (h : Adds (Effect.Near none) w w') (path : Bytes) :
    Adds (Effect.Near (some path)) w w' :=
  h.mono fun _ hx => ⟨fun p hxp => absurd (hx.1 p hxp) (by simp), hx.2⟩

/-- One effect. -/
theorem adds_emit {P : Effect → Prop} (w : World) {x : Effect} (hx : P x) :
    Adds P w (w.emit x) := ⟨[x], rfl, by simpa using hx⟩

/-- Receive tasks and files are those of before, no file was changed in between, and nothing was
    reported. -/
structure Plain (w w' : World) : Prop where
  recv : w'.tasks.recv = w.tasks.recv
  disk : w'.disk = w.disk
  adds : Adds (Effect.Near none) w w'

theorem Plain.refl (w : World) : Plain w w := ⟨rfl, rfl, .refl _ w⟩

/-- One step behind the other. -/
theorem Plain.trans {w1 w2 w3 : World} (h : Plain w1 w2) (h' : Plain w2 w3) : Plain w1 w3 :=
  ⟨h'.recv.trans h.recv, h'.disk.trans h.disk, h.adds.trans h'.adds⟩

/-- An effect that is near no file. -/
theorem plain_emit (w : World) {x : Effect} (hx : x.Near none) : Plain w (w.emit x) :=
  ⟨rfl, rfl, adds_emit w hx⟩

theorem plain_setSend (w : World) (t : SendTask) : Plain w (w.setSend t) := ⟨rfl, rfl, .refl _ w⟩

/-- A line for the user that is no report. -/
theorem plain_print (w : World) {text : Bytes} (h : Silent text) : Plain w (w.print text) :=
  plain_emit w ⟨by simp [Effect.changes], h⟩

/-- Texts that come in are shown, not printed, so they report nothing. -/
theorem plain_displayIncoming (w : World) (text : Bytes) : Plain w (w.displayIncoming text) :=
  plain_emit w ⟨by simp [Effect.changes], by simp [Effect.Reports]⟩

/-- A frame, whether or not it goes out. -/
theorem plain_send (w : World) (frame : Bytes) (ok : Bool) : Plain w (w.emit (.send frame ok)) :=
  plain_emit w ⟨by simp [Effect.changes], by simp [Effect.Reports]⟩

/-- A control frame is a frame. -/
theorem plain_sendTid (w : World) (msgType : UInt8) (tid : Nat) (sendOk : Bool) :
    Plain w (w.sendTid msgType tid sendOk).1 := by
  rw [sendTid_eq]
  exact plain_send w _ _

/-- The file that is sent is closed, which changes nothing in it. -/
theorem plain_fclose (w : World) (path : Bytes) (ok : Bool) :
    Plain w (w.emit (.fclose path ok)) :=
  plain_emit w ⟨by simp [Effect.changes], by simp [Effect.Reports]⟩

/-- Memory is asked for, given or not. -/
theorem plain_malloc (w : World) (len : Nat) (ok : Bool) : Plain w (w.emit (.malloc len ok)) :=
  plain_emit w ⟨by simp [Effect.changes], by simp [Effect.Reports]⟩

/-- The bitmap is released, if there is one. -/
theorem plain_freeBitmap (w : World) (t : RecvTask) : Plain w (w.freeBitmap t) := by
  unfold freeBitmap
  cases t.bitmap with
  | none => exact .refl w
  | some bitmap => exact plain_emit w ⟨by simp [Effect.changes], by simp [Effect.Reports]⟩

/-- Up to the bitmap `/accept` has touched no file. -/
theorem AskedBitmap.plain {w v : World} {i : Slot} {bitmap : Option Bytes}
    (h : w.AskedBitmap i v bitmap) : Plain w v := by
  cases h with
  | notYet => exact .refl w
  | refused len => exact plain_malloc w len false
  | granted bitmap => exact plain_malloc w bitmap.length true

/-- Clearing the send task closes the file it reads. -/
theorem plain_sendTaskClear (w : World) : Plain w w.sendTaskClear := by
  unfold sendTaskClear fcloseSend
  cases w.send.fp with
  | none => exact plain_setSend w _
  | some h => exact (plain_fclose w _ _).trans (plain_setSend _ _)

/-- So does clearing it only where it is busy. -/
theorem plain_ifSendTaskClear (w : World) :
    Plain w (if w.send.busy then w.sendTaskClear else w) := by
  split_ifs
  · exact plain_sendTaskClear w
  · exact .refl w

/-- The answer to an id that nobody has. -/
theorem plain_noSuchTransfer (w : World) (tid : Nat) : Plain w (w.noSuchTransfer tid) :=
  plain_print w (silent_append (by decide +kernel) (by decide +kernel) _)

/-! ### The sending side -/

/-- No refusal of `/sendfile` reads like the report of a file. -/
theorem silent_sendfileRefusals {filename text : Bytes} (h : text ∈ sendfileRefusals filename) :
    Silent text := by
  simp only [sendfileRefusals, List.mem_cons, List.not_mem_nil, or_false] at h
  obtain rfl | rfl | rfl | rfl | rfl := h
  · exact silent_lit (by decide +kernel)
  · exact silent_lit (by decide +kernel)
  · exact silent_append (by decide +kernel) (by decide +kernel) _
  · exact silent_lit (by decide +kernel)
  · exact silent_lit (by decide +kernel)

/-- `/sendfile` reads a file, and changes none. -/
theorem plain_sendfile (w : World) (io : SendfileIo) (line : Bytes) :
    Plain w (w.fileCmdSendfile io line).1 := by
  have hread : ∀ filename, Plain w (w.emit (.fopenRead filename)) := fun _ =>
    plain_emit w ⟨by simp [Effect.changes], by simp [Effect.Reports]⟩
  apply w.fileCmdSendfile_cases (P := fun res => Plain w res.1)
  case refused => exact fun _ _ _ h => plain_print w (silent_sendfileRefusals h)
  case givenUp =>
    intro _ _ filename text h
    exact ((hread filename).trans (plain_fclose _ _ _)).trans
      (plain_print _ (silent_sendfileRefusals h))
  case submitted =>
    intro target filename _
    unfold sendInit
    dsimp only
    have hset := fun t => (hread filename).trans (plain_setSend _ t)
    cases protocolBuildText3 msgFileInit target filename (decimal io.fsize.toNat)
        (protoHeaderSize + maxUsernameLen + maxFilenameLen + 32) with
    | none => exact (hset _).trans (plain_sendTaskClear _)
    | some frame =>
      cases io.sendOk with
      | false => exact ((hset _).trans (plain_send _ frame false)).trans (plain_sendTaskClear _)
      | true =>
        exact ((hset _).trans (plain_send _ frame true)).trans
          (plain_print _ (silent_append (by decide +kernel) (by decide +kernel) _))

/-- The line with the percentage. -/
theorem plain_showProgress (w : World) : Plain w w.showProgress := by
  unfold showProgress
  dsimp only
  split_ifs
  · exact (plain_displayIncoming w _).trans (plain_setSend _ _)
  · exact .refl w

/-- A round of the tick reads a piece and sends it. -/
theorem plain_tickChunk (w : World) (io : TickIo) (i : Nat) : Plain w (w.tickChunk io i).1 := by
  unfold tickChunk
  cases fileChunkPlan w.send.size fileChunkDataMax (w.send.sent / fileChunkDataMax) with
  | none => exact plain_sendTaskClear w
  | some plan =>
    obtain ⟨offset, len⟩ := plan
    dsimp only
    generalize (io.fread _ len).take len = data
    by_cases hread : data.length ≠ len
    · rw [if_pos hread]
      exact ((plain_print w (silent_lit (by decide +kernel))).trans
        (plain_sendTid _ _ _ _)).trans (plain_sendTaskClear _)
    rw [if_neg hread]
    cases protocolBuildChunk w.send.tid offset data (protoHeaderSize + 12 + fileChunkDataMax) with
    | none => exact plain_sendTaskClear w
    | some frame =>
      cases io.sendOk i with
      | false => exact (plain_send w frame false).trans (plain_sendTaskClear _)
      | true =>
        exact ((plain_send w frame true).trans (plain_setSend _ _)).trans (plain_showProgress _)

/-- The end of the loop changes the state only. -/
theorem plain_tickEnd (w : World) : Plain w w.tickEnd := by
  unfold tickEnd
  split_ifs
  · exact plain_setSend w _
  · exact .refl w

/-- So the loop touches no file of the folder, -/
theorem plain_tickLoop (io : TickIo) (fuel i : Nat) (w : World) :
    Plain w (tickLoop io fuel i w).1 := by
  induction fuel generalizing i w with
  | zero => exact plain_tickEnd w
  | succ fuel ih =>
    rw [tickLoop]
    split_ifs
    · have hchunk := plain_tickChunk w io i
      generalize w.tickChunk io i = res at hchunk ⊢
      obtain ⟨w1, early⟩ := res
      cases early with
      | none => exact hchunk.trans (ih (i + 1) w1)
      | some status => exact hchunk
    · exact plain_tickEnd w

/-- and neither does the tick. -/
theorem plain_fileSendTick (w : World) (io : TickIo) : Plain w (w.fileSendTick io).1 := by
  unfold fileSendTick
  by_cases hbusy : w.send.busy = true
  swap
  · rw [if_pos hbusy]
    exact .refl w
  rw [if_neg (not_not_intro hbusy)]
  by_cases hidle : w.send.state ≠ .active ∧ w.send.state ≠ .done
  · rw [if_pos hidle]
    exact .refl w
  rw [if_neg hidle]
  by_cases hdone : w.send.state = .done
  · have hsent := plain_send w (tidFrame msgFileComplete w.send.tid).encode
    rw [if_pos hdone, sendTid_eq]
    cases io.sendOk 0 with
    | false => exact hsent false
    | true => exact (hsent true).trans (plain_setSend _ _)
  rw [if_neg hdone]
  exact plain_tickLoop io fileChunksPerRound 0 w

/-! ### Files kept -/

/-- The path of the file a slot has open. -/
def openPath (w : World) (i : Slot) : Option Bytes := (w.recv i).fp.map FileHandle.path

/-- The file that completing an id keeps, as its `fclose` leaves it. -/
def keptBy (w : World) (io : Io) (tid : Nat) : Option (Bytes × Bytes) :=
  (w.recvTaskFind tid).bind fun i =>
    if (w.recv i).received = (w.recv i).size then
      (w.openPath i).bind fun path =>
        (w.disk path).map fun content => (path, io.fcloseLoss.getD content)
    else none

end World

/-- The transfer whose receive task an event completes: that of a COMPLETE frame, or of a
    complete announcement the client's own send task does not take. -/
def FileEvent.completes (w : World) : FileEvent → Option (Nat × Io)
  | .frame type payload io =>
    if payload.length = 4 ∧ type = msgFileComplete then some (utilsReadU32Be payload, io) else none
  | .announcement text io =>
    match fileParseAnnouncement text with
    | some (.complete, tid) =>
      if w.sendTaskMatches tid ∧ w.send.state = .waitComplete then none else some (tid, io)
    | _ => none
  | _ => none

/-- The file an event keeps, because its transfer passes the completion check. -/
def FileEvent.keeps (w : World) (e : FileEvent) : Option (Bytes × Bytes) :=
  (e.completes w).bind fun c => w.keptBy c.2 c.1

namespace World

/-- No file was changed, opened or closed, and nothing was reported. -/
structure Still (w w' : World) : Prop where
  adds : Adds (Effect.Near none) w w'
  disk : w'.disk = w.disk
  opened : ∀ i, w'.openPath i = w.openPath i

/-- What an event does to the folder, with the file it keeps.  A file given up is gone where
    `removed` says so; where its `remove` failed, it is still the only name that changed. -/
inductive FolderStep (removed : Prop) (w w' : World) : Option (Bytes × Bytes) → Prop where
  | still (h : Still w w') : FolderStep removed w w' none
  | refused (path : Bytes) (hadds : Adds (Effect.Near (some path)) w w')
      (hfree : w.disk path = none) (hdisk : ∀ p, p ≠ path → w'.disk p = w.disk p)
      (hgone : removed → w'.disk path = none)
      (hopen : ∀ i, w'.openPath i = w.openPath i) : FolderStep removed w w' none
  | created (i : Slot) (path : Bytes) (hadds : Adds (Effect.Near (some path)) w w')
      (hfree : w.disk path = none) (hnone : ∀ j, w.openPath j = none)
      (hdisk : ∀ p, p ≠ path → w'.disk p = w.disk p) (hopen : w'.openPath i = some path) :
      FolderStep removed w w' none
  | written (i : Slot) (path : Bytes) (hadds : Adds (Effect.Near (some path)) w w')
      (hold : w.openPath i = some path) (hdisk : ∀ p, p ≠ path → w'.disk p = w.disk p)
      (hopen : w'.openPath i = some path) : FolderStep removed w w' none
  | discarded (i : Slot) (path : Bytes) (hadds : Adds (Effect.Near (some path)) w w')
      (hold : w.openPath i = some path) (hdisk : ∀ p, p ≠ path → w'.disk p = w.disk p)
      (hgone : removed → w'.disk path = none) (hopen : ∀ j, w'.openPath j = none) :
      FolderStep removed w w' none
  | kept (i : Slot) (path content : Bytes)
      (hadds : Adds (fun x => x.changes = none) w w')
      (hold : w.openPath i = some path)
      (hdisk : w'.disk = Function.update w.disk path (some content))
      (hopen : ∀ j, w'.openPath j = none) : FolderStep removed w w' (some (path, content))

variable {w w' : World} {io : Io} {i : Slot} {tid : Nat} {path : Bytes} {removed : Prop}

theorem openPath_eq_some :
    w.openPath i = some path ↔ ∃ fh, (w.recv i).fp = some fh ∧ fh.path = path := by
  simp [openPath]

/-- No path is no file. -/
theorem openPath_eq_none : w.openPath i = none ↔ (w.recv i).fp = none := by
  simp [openPath]

/-- Only one slot has a file. -/
theorem openPath_of_ne (hcoh : CoherentTable w.recv) (hold : w.openPath i = some path) {j : Slot}
    (hji : j ≠ i) : w.openPath j = none := by
  obtain ⟨fh, hfp, -⟩ := openPath_eq_some.mp hold
  rw [openPath_eq_none]
  by_contra hne
  exact hji (hcoh.oneActive j i (Option.isSome_iff_ne_none.mpr hne) (by simp [hfp]))

/-- A file that is open is the one file that is. -/
theorem openPath_unique (hcoh : CoherentTable w.recv) (hold : w.openPath i = some path) {j : Slot}
    {p : Bytes} (hj : w.openPath j = some p) : j = i ∧ p = path := by
  have hji : j = i := by
    by_contra hji
    rw [openPath_of_ne hcoh hold hji] at hj
    exact absurd hj (by simp)
  rw [hji, hold] at hj
  exact ⟨hji, (Option.some.inj hj).symm⟩

/-- When the one slot that may have a file is cleared, none has. -/
theorem openPath_cleared (hrecv : w'.tasks.recv = Function.update w.recv i RecvTask.zero)
    (hother : ∀ j, j ≠ i → w.openPath j = none) (j : Slot) : w'.openPath j = none := by
  rw [openPath, recv, hrecv]
  by_cases hji : j = i
  · rw [hji, Function.update_self]
    rfl
  · rw [Function.update_of_ne hji]
    exact hother j hji

/-- The paths follow from the receive tasks. -/
theorem openPath_congr (h : w'.tasks.recv = w.tasks.recv) (i : Slot) :
    w'.openPath i = w.openPath i := by
  simp only [openPath, recv, h]

theorem Still.refl (w : World) : Still w w := ⟨.refl _ w, rfl, fun _ => rfl⟩

/-- One step behind the other. -/
theorem Still.trans {w1 w2 w3 : World} (h : Still w1 w2) (h' : Still w2 w3) : Still w1 w3 :=
  ⟨h.adds.trans h'.adds, h'.disk.trans h.disk, fun i => (h'.opened i).trans (h.opened i)⟩

/-- Steps that keep the receive tasks keep the open file. -/
theorem Plain.still (h : Plain w w') : Still w w' := ⟨h.adds, h.disk, openPath_congr h.recv⟩

theorem Plain.folder (h : Plain w w') : FolderStep removed w w' none := .still h.still

/-- What changes no file may follow the step. -/
theorem FolderStep.then {w1 : World} (h : FolderStep removed w w1 none) (hs : Still w1 w') :
    FolderStep removed w w' none := by
  obtain ⟨hadds, hdisk, hopen⟩ := hs
  cases h with
  | still h => exact .still (h.trans ⟨hadds, hdisk, hopen⟩)
  | refused path ha hfree hd hgone ho =>
    rw [← hdisk] at hd hgone
    exact .refused path (ha.trans (hadds.wider _)) hfree hd hgone fun j => by rw [hopen, ho]
  | created i path ha hfree hnone hd ho =>
    exact .created i path (ha.trans (hadds.wider _)) hfree hnone (by rw [hdisk]; exact hd)
      (by rw [hopen, ho])
  | written i path ha hold hd ho =>
    exact .written i path (ha.trans (hadds.wider _)) hold (by rw [hdisk]; exact hd)
      (by rw [hopen, ho])
  | discarded i path ha hold hd hgone ho =>
    rw [← hdisk] at hd hgone
    exact .discarded i path (ha.trans (hadds.wider _)) hold hd hgone fun j => by rw [hopen, ho]

/-- What changes no file may come before the step. -/
theorem FolderStep.after {w1 : World} {k : Option (Bytes × Bytes)} (hs : Still w w1)
    (h : FolderStep removed w1 w' k) : FolderStep removed w w' k := by
  obtain ⟨hadds, hdisk, hopen⟩ := hs
  cases h with
  | still h => exact .still (Still.trans ⟨hadds, hdisk, hopen⟩ h)
  | refused path ha hfree hd hgone ho =>
    rw [hdisk] at hfree hd
    exact .refused path ((hadds.wider _).trans ha) hfree hd hgone fun j => by rw [ho, hopen]
  | created i path ha hfree hnone hd ho =>
    rw [hdisk] at hfree hd
    exact .created i path ((hadds.wider _).trans ha) hfree
      (fun j => by rw [← hopen, hnone]) hd ho
  | written i path ha hold hd ho =>
    rw [hdisk] at hd
    exact .written i path ((hadds.wider _).trans ha) (by rw [← hopen, hold]) hd ho
  | discarded i path ha hold hd hgone ho =>
    rw [hdisk] at hd
    exact .discarded i path ((hadds.wider _).trans ha) (by rw [← hopen, hold]) hd hgone ho
  | kept i path content ha hold hd ho =>
    rw [hdisk] at hd
    refine .kept i path content ((hadds.mono fun x hx => ?_).trans ha) (by rw [← hopen, hold]) hd ho
    exact Option.eq_none_iff_forall_ne_some.mpr fun p hp => absurd (hx.1 p hp) (by simp)

/-! ### Closing a file -/

/-- The effects of clearing a task change no name but that of its file. -/
theorem adds_recvTaskClear (w : World) (io : Io) (i : Slot)
    (hname : (w.recv i).saveName = [] ∨
      fileJoinPath fileDownloadDir (w.recv i).saveName 512 = some path) :
    Adds (Effect.Near (some path)) w (w.recvTaskClear io i) := by
  have hclose : ∀ p loss, Adds (Effect.Near (some path)) w (w.fcloseWrite p loss) := by
    intro p loss
    cases loss <;> exact ⟨_, rfl, by simp [Effect.Near, Effect.changes, Effect.Reports]⟩
  have hremove : ∀ w1 : World, Adds (Effect.Near (some path)) w1 (w1.remove path io.removeOk) := by
    intro w1
    unfold remove
    split_ifs <;> exact ⟨_, rfl, by simp [Effect.Near, Effect.changes, Effect.Reports]⟩
  have hdiscard : Adds (Effect.Near (some path)) w (w.discardFile io (w.recv i)) := by
    unfold discardFile
    dsimp only
    by_cases hempty : (w.recv i).saveName = []
    · rw [if_pos hempty]
      cases (w.recv i).fp with
      | none => exact .refl _ w
      | some h => exact hclose h.path _
    · rw [if_neg hempty, hname.resolve_left hempty]
      cases (w.recv i).fp with
      | none => exact hremove w
      | some h => exact (hclose h.path _).trans (hremove _)
  exact hdiscard.trans ((plain_freeBitmap _ _).adds.wider path)

/-- Clearing a task with a save name touches the file of that name, and removes it if it can. -/
theorem disk_recvTaskClear_of_named (w : World) (io : Io) (hname : (w.recv i).saveName ≠ [])
    (hpath : fileJoinPath fileDownloadDir (w.recv i).saveName 512 = some path)
    (hfp : ∀ fh, (w.recv i).fp = some fh → fh.path = path) :
    (∀ p, p ≠ path → (w.recvTaskClear io i).disk p = w.disk p) ∧
      (io.removeOk = true → (w.recvTaskClear io i).disk path = none) := by
  have hremove (v : World) : (∀ p, p ≠ path → (v.remove path io.removeOk).disk p = v.disk p) ∧
      (io.removeOk = true → (v.remove path io.removeOk).disk path = none) := by
    unfold remove
    split_ifs with hok
    · exact ⟨fun p hp => by simp [setDisk, emit, hp], fun _ => by simp [setDisk]⟩
    · exact ⟨fun p _ => rfl, fun h => absurd h hok⟩
  have hclose (p : Bytes) (hp : p ≠ path) :
      (w.fcloseWrite path io.fcloseLoss).disk p = w.disk p := by
    cases io.fcloseLoss <;> simp [fcloseWrite, setDisk, emit, hp]
  unfold recvTaskClear discardFile
  dsimp only
  rw [if_neg hname, hpath]
  simp only [disk_setRecv, disk_freeBitmap]
  cases hfile : (w.recv i).fp with
  | none => exact hremove w
  | some fh =>
    dsimp only
    rw [hfp fh hfile]
    exact ⟨fun p hp => ((hremove _).1 p hp).trans (hclose p hp), (hremove _).2⟩

/-- Clearing the open task, whatever was written into its file before. -/
theorem FolderStep.discard {w1 : World} {fh : FileHandle} (hcoh : CoherentTable w.recv)
    (hio : removed → io.removeOk = true) (hfp : (w.recv i).fp = some fh)
    (hrecv : w1.tasks.recv = w.tasks.recv) (hadds : Adds (Effect.Near (some fh.path)) w w1)
    (hdisk : ∀ p, p ≠ fh.path → w1.disk p = w.disk p) :
    FolderStep removed w (w1.recvTaskClear io i) none := by
  have hi : w1.recv i = w.recv i := congrFun hrecv i
  obtain ⟨hname, hpath⟩ := hcoh.activePath i fh hfp
  have hold : w.openPath i = some fh.path := openPath_eq_some.mpr ⟨fh, hfp, rfl⟩
  rw [← hi] at hname hpath
  obtain ⟨hother, hgone⟩ := disk_recvTaskClear_of_named w1 io hname hpath fun fh' hfp' => by
    rw [hi, hfp] at hfp'
    rw [Option.some.inj hfp']
  refine .discarded i fh.path ?_ hold (fun p hp => (hother p hp).trans (hdisk p hp))
    (fun h => hgone (hio h)) fun j => ?_
  · exact hadds.trans (adds_recvTaskClear w1 io i (Or.inr hpath))
  · exact openPath_cleared (w := w) (i := i) (by simp [hrecv, recv])
      (fun j => openPath_of_ne hcoh hold) j

/-- Clearing a task without a file. -/
theorem still_recvTaskClear (hcoh : CoherentTable w.recv) (io : Io) (hfp : (w.recv i).fp = none) :
    Still w (w.recvTaskClear io i) := by
  have hname := hcoh.pendingName i hfp
  refine ⟨⟨[], ?_, by simp⟩, disk_recvTaskClear_of_pending io hfp hname, fun j => ?_⟩
  · unfold recvTaskClear discardFile freeBitmap
    rw [hfp, if_pos hname, hcoh.pendingBitmap i hfp]
    simp [setRecv]
  · by_cases hji : j = i
    · rw [hji, openPath_eq_none.mpr hfp]
      simp [openPath, RecvTask.zero]
    · simp [openPath, hji]

/-- Clearing a task on the way to which nothing happened to the files. -/
theorem FolderStep.clear {w1 : World} (hcoh : CoherentTable w.recv)
    (hio : removed → io.removeOk = true) (hp : Plain w w1) (i : Slot) :
    FolderStep removed w (w1.recvTaskClear io i) none := by
  cases hfp : (w.recv i).fp with
  | none =>
    have hcoh1 : CoherentTable w1.recv := by
      rw [recv, hp.recv]
      exact hcoh
    exact .still (hp.still.trans (still_recvTaskClear hcoh1 io (by rw [recv, hp.recv, hfp])))
  | some fh =>
    exact .discard hcoh hio hfp hp.recv (hp.adds.wider _) fun p _ => by rw [hp.disk]

/-- Giving up on a file under a free name touches no other file. -/
theorem FolderStep.refuse {w1 : World} (hio : removed → io.removeOk = true)
    (hfree : w.disk path = none) (hnone : ∀ j, w.openPath j = none)
    (hadds : Adds (Effect.Near (some path)) w w1)
    (hdisk : ∀ p, p ≠ path → w1.disk p = w.disk p) (hname : (w1.recv i).saveName ≠ [])
    (hpath : fileJoinPath fileDownloadDir (w1.recv i).saveName 512 = some path)
    (hfp : ∀ fh, (w1.recv i).fp = some fh → fh.path = path)
    (hother : ∀ j, j ≠ i → w1.openPath j = none) :
    FolderStep removed w (w1.recvTaskClear io i) none := by
  obtain ⟨hdisk', hgone⟩ := disk_recvTaskClear_of_named w1 io hname hpath hfp
  refine .refused path (hadds.trans (adds_recvTaskClear w1 io i (Or.inr hpath))) hfree
    (fun p hp => (hdisk' p hp).trans (hdisk p hp)) (fun h => hgone (hio h)) fun j => ?_
  rw [hnone j]
  exact openPath_cleared (by simp) hother j

/-! ### The receiving side -/

/-- `recv_task_finish` keeps a file that is complete, and discards any other. -/
theorem recvTaskFinish_folder (hcoh : CoherentTable w.recv) (hfiles : FilesOk w)
    (hio : removed → io.removeOk = true) (hold : w.openPath i = some path) :
    FolderStep removed w (w.recvTaskFinish io i)
      (if (w.recv i).received = (w.recv i).size then
        (w.disk path).map fun content => (path, io.fcloseLoss.getD content)
      else none) := by
  unfold recvTaskFinish
  dsimp only
  split_ifs with hfull
  · -- `save_name` is blanked first, so that clearing the task closes the file and keeps it
    obtain ⟨fh, hfp, rfl⟩ := openPath_eq_some.mp hold
    rw [(hfiles i fh hfp).content, Option.map_some]
    refine .kept i fh.path _ ?_ hold ?_ fun j => ?_
    · have hunchanged {w1 w2 : World} (h : Plain w1 w2) :
          Adds (fun x => x.changes = none) w1 w2 :=
        h.adds.mono fun x hx =>
          Option.eq_none_iff_forall_ne_some.mpr fun p hp => absurd (hx.1 p hp) (by simp)
      generalize hv : (w.print _).setRecv i _ = v
      have hclosed : Adds (fun x => x.changes = none) w (v.discardFile io (v.recv i)) := by
        subst hv
        unfold discardFile
        cases io.fcloseLoss <;>
          exact ⟨_, by simp [hfp, fcloseWrite, print, setRecv, emit, setDisk]; rfl,
            by simp [Effect.changes]⟩
      have hfreed := hclosed.trans (hunchanged (plain_freeBitmap _ (v.recv i)))
      exact hfreed
    · unfold recvTaskClear discardFile
      cases io.fcloseLoss <;> simp [hfp, fcloseWrite, emit, setDisk, (hfiles i fh hfp).content]
    · exact openPath_cleared (w := w) (i := i) (by simp) (fun j => openPath_of_ne hcoh hold) j
  · exact .clear hcoh hio (plain_print w (silent_incomplete _ _)) i

/-- A completion signal for an id nobody has, or for a task without a file, keeps nothing. -/
theorem recvTaskComplete_folder (hcoh : CoherentTable w.recv) (hfiles : FilesOk w)
    (hio : removed → io.removeOk = true) (tid : Nat) :
    FolderStep removed w (w.recvTaskComplete io tid) (w.keptBy io tid) := by
  unfold recvTaskComplete keptBy
  cases hfind : w.recvTaskFind tid with
  | none => exact (Plain.refl w).folder
  | some i =>
    dsimp only [Option.bind_some]
    cases hold : w.openPath i with
    | none =>
      have hfp := openPath_eq_none.mp hold
      rw [if_neg (by simp [hfp]), Option.bind_none, ite_self]
      exact .clear hcoh hio (.refl w) i
    | some path =>
      obtain ⟨fh, hfp, -⟩ := openPath_eq_some.mp hold
      rw [if_pos (by simp [hfp]), Option.bind_some]
      exact recvTaskFinish_folder hcoh hfiles hio hold

/-- The frame and the line of `recv_task_abort`. -/
theorem plain_abort (w : World) (sendOk : Bool) (tid : Nat) (why : Bytes)
    (hlen : (utf8 "文件 #").length ≤ why.length) (hwhy : ¬ utf8 "文件 #" <+: why) :
    Plain w ((w.sendTid msgFileCancel tid sendOk).1.print
      (why ++ (utf8 "（#" ++ (decimal tid ++ utf8 "）")))) :=
  (plain_sendTid w _ _ _).trans (plain_print _ (silent_append hlen hwhy _))

/-- `recv_task_abort` gives the file up. -/
theorem recvTaskAbort_folder (hcoh : CoherentTable w.recv)
    (hio : removed → io.removeOk = true) (i : Slot)
    {why : Bytes} (hlen : (utf8 "文件 #").length ≤ why.length) (hwhy : ¬ utf8 "文件 #" <+: why) :
    FolderStep removed w (w.recvTaskAbort io i why) none :=
  .clear hcoh hio (plain_abort w _ _ why hlen hwhy) i

/-- `recv_task_reject` gives up a task, which may have a file. -/
theorem recvTaskReject_folder (hcoh : CoherentTable w.recv)
    (hio : removed → io.removeOk = true) (i : Slot)
    {why : Bytes} (hwhy : ¬ utf8 "文件 #" <+: why) :
    FolderStep removed w (w.recvTaskReject io i why) none :=
  .clear hcoh hio ((plain_print w (silent_lit hwhy)).trans (plain_sendTid _ _ _ _)) i

/-- A task that is announced has no file yet. -/
theorem recvAnnounceIncoming_folder (hcoh : CoherentTable w.recv) (tid : Nat) :
    FolderStep removed w (w.recvAnnounceIncoming io tid) none := by
  unfold recvAnnounceIncoming
  cases hslot : w.recvTaskSlot with
  | none =>
    exact ((plain_print w (silent_lit (by decide +kernel))).trans (plain_sendTid _ _ _ _)).folder
  | some i =>
    refine .still ⟨.refl _ w, rfl, fun j => ?_⟩
    by_cases hji : j = i
    · -- a free slot has no file
      have hfp : (w.recv i).fp = none := by
        by_contra hne
        obtain ⟨fh, hfp⟩ := Option.ne_none_iff_exists'.mp hne
        exact absurd ((hcoh.activeBusy i fh hfp).symm.trans (recvTaskSlot_eq_some hslot)) (by simp)
      rw [hji, openPath_eq_none.mpr hfp]
      simp [openPath, RecvTask.zero]
    · simp [openPath, hji]

/-- INIT fills fields of a task, none of which is its file. -/
theorem recvFillInit_folder (w : World) (f : InitFields) :
    FolderStep removed w (w.recvFillInit f) none := by
  unfold recvFillInit
  cases hbest : w.recvInitBest with
  | none => exact (Plain.refl w).folder
  | some i =>
    refine .still ⟨.refl _ w, rfl, fun j => ?_⟩
    by_cases hji : j = i
    · simp [openPath, hji]
    · simp [openPath, hji]

/-- A chunk is written into the file of its task, or the file is given up. -/
theorem recvChunk_folder (hcoh : CoherentTable w.recv) (hio : removed → io.removeOk = true)
    (tid offset : Nat) (data : Bytes) :
    FolderStep removed w (w.recvChunk io tid offset data) none := by
  unfold recvChunk
  cases hfind : w.recvTaskFind tid with
  | none => exact (Plain.refl w).folder
  | some i =>
    dsimp only
    cases hfp : (w.recv i).fp with
    | none => exact (Plain.refl w).folder
    | some fh =>
      obtain ⟨hname, hpath⟩ := hcoh.activePath i fh hfp
      have hold : w.openPath i = some fh.path := openPath_eq_some.mpr ⟨fh, hfp, rfl⟩
      have hwrite : Adds (Effect.Near (some fh.path)) w
          (w.fwrite fh.path offset (io.fwritten data)) :=
        ⟨_, rfl, by simp [Effect.Near, Effect.changes, Effect.Reports]⟩
      dsimp only
      -- in two of the four branches nothing is written, in one only part of the data
      split_ifs with hspan hseek hshort
      · exact recvTaskAbort_folder hcoh hio i (by decide +kernel) (by decide +kernel)
      · -- part of the data is in the file, which goes with it
        have hplain := (w.fwrite fh.path offset (io.fwritten data)).plain_abort io.sendOk
          (w.recv i).tid (utf8 "写入文件失败，已取消") (by decide +kernel) (by decide +kernel)
        refine .discard hcoh hio hfp hplain.recv (hwrite.trans (hplain.adds.wider _)) fun p hp => ?_
        exact (congrFun hplain.disk p).trans (by simp [fwrite, setDisk, emit, hp])
      · refine .written i fh.path hwrite hold (fun p hp => ?_) ?_
        · simp [fwrite, setRecv, setDisk, emit, hp]
        · simp [openPath]
      · exact recvTaskAbort_folder hcoh hio i (by decide +kernel) (by decide +kernel)

/-- Bitmap and file are there before ACCEPT is sent. -/
theorem adds_opened (w : World) (path : Bytes) (i : Slot) (len : Nat) (t : RecvTask)
    (frame : Bytes) (ok : Bool) : Adds (Effect.Near (some path)) w
      ((((w.emit (.malloc len true)).fopenWrite path).setRecv i t).emit (.send frame ok)) := by
  have hasked := (plain_malloc w len true).adds.wider path
  have hopened (v : World) : Adds (Effect.Near (some path)) v (v.fopenWrite path) :=
    adds_emit _ ⟨by simp [Effect.changes], by simp [Effect.Reports]⟩
  exact (hasked.trans (hopened _)).trans ((plain_send _ frame ok).adds.wider path)

/-- A refusal before the file is created, on the way to which only fields of the task changed. -/
theorem AwaitsUser.refused_folder {i : Slot} (h : w.AwaitsUser tid i)
    (hcoh : CoherentTable w.recv) (hio : removed → io.removeOk = true) {t : RecvTask}
    (hname : w.Names i t.saveName) (hfp : t.fp = none) {v : World} (hv : Plain w v)
    {why : Bytes} (hwhy : ¬ utf8 "文件 #" <+: why) :
    FolderStep removed w ((v.setRecv i t).recvTaskReject io i why) none := by
  obtain ⟨path, hpath⟩ := hname.exists_path
  have hnone := fun j => openPath_eq_none.mpr (h.noneOpen hcoh j)
  have hplain : Plain (v.setRecv i t) (((v.setRecv i t).print why).sendTid msgFileReject
      ((v.setRecv i t).recv i).tid io.sendOk).1 :=
    (plain_print _ (silent_lit hwhy)).trans (plain_sendTid _ _ _ _)
  have hslot : (((v.setRecv i t).print why).sendTid msgFileReject
      ((v.setRecv i t).recv i).tid io.sendOk).1.recv i = t := by
    rw [recv, hplain.recv, recv_setRecv, Function.update_self]
  refine .refuse hio (hname.free hpath) hnone ((hv.adds.trans hplain.adds).wider path)
    (fun p _ => ?_) ?_ ?_ ?_ fun j hji => ?_
  · rw [hplain.disk, disk_setRecv, hv.disk]
  · rw [hslot]
    exact hname.ne_nil
  · rw [hslot, hpath]
  · rw [hslot, hfp]
    simp
  · rw [openPath_congr hplain.recv]
    simpa [openPath, hji, hv.recv] using hnone j

/-- `/accept` creates a file, or gives up before it or right behind it. -/
theorem acceptTid_folder (hcoh : CoherentTable w.recv)
    (hio : removed → io.removeOk = true) (tid : Nat) :
    FolderStep removed w (w.acceptTid io tid).1 none := by
  have hbranch := w.acceptTid_branch io tid
  generalize w.acceptTid io tid = res at hbranch ⊢
  cases hbranch with
  | unknown hfind => exact (plain_noSuchTransfer w tid).folder
  | early i text hfind hnot htext => exact (plain_print w (silent_lit htext)).folder
  | unnamed i why h hown hwhy => exact recvTaskReject_folder hcoh hio i hwhy
  | uncreated i v t why h hown hname htid hfp hasked hwhy =>
    exact h.refused_folder hcoh hio hname hfp hasked.plain hwhy
  | lost i saveName path h hown hname hpath =>
    -- the file that was just created goes again
    have hnone := fun j => openPath_eq_none.mpr (h.noneOpen hcoh j)
    refine .refuse hio (hname.free hpath) hnone (adds_opened w path i _ _ _ false)
      (fun p hp => ?_) ?_ ?_ ?_ fun j hji => ?_
    · simp [fopenWrite, setDisk, emit, hp]
    · simpa [RecvTask.opened] using hname.ne_nil
    · simpa [RecvTask.opened] using hpath
    · simp [RecvTask.opened]
    · simpa [openPath, hji] using hnone j
  | accepted i saveName path h hown hname hpath =>
    have hnone := fun j => openPath_eq_none.mpr (h.noneOpen hcoh j)
    refine FolderStep.then (.created i path (adds_opened w path i _ _ _ true) (hname.free hpath)
      hnone (fun p hp => ?_) ?_) (plain_print _ ?_).still
    · simp [fopenWrite, setDisk, emit, hp]
    · simp [openPath, RecvTask.opened]
    · exact silent_append (by decide +kernel) (by decide +kernel) _

/-- `/reject` gives up a task without a file. -/
theorem rejectTid_folder (hcoh : CoherentTable w.recv)
    (hio : removed → io.removeOk = true) (tid : Nat) :
    FolderStep removed w (w.rejectTid io tid).1 none := by
  unfold rejectTid
  cases hfind : w.recvTaskFind tid with
  | none => exact (plain_noSuchTransfer w tid).folder
  | some i =>
    have hsent := plain_send w (tidFrame msgFileReject tid).encode
    dsimp only
    split_ifs
    · exact (plain_print w (silent_cons (by decide))).folder
    · rw [sendTid_eq]
      cases io.sendOk with
      | false => exact (hsent false).folder
      | true =>
        exact .clear hcoh hio ((hsent true).trans (plain_print _
          (silent_append (by decide +kernel) (by decide +kernel) _))) i

/-! ### Signals, `/cancel`, errors, reset -/

/-- An acceptance is for the file that is sent. -/
theorem plain_accepted (w : World) (tid : Nat) : Plain w (w.accepted tid) := by
  unfold accepted
  split_ifs
  · exact plain_setSend w _
  · exact .refl w

/-- So is a rejection. -/
theorem plain_rejected (w : World) (tid : Nat) : Plain w (w.rejected tid) := by
  unfold rejected
  split_ifs
  · exact plain_sendTaskClear w
  · exact .refl w

/-- A cancellation from the peer gives up the file of its task. -/
theorem cancelled_folder (hcoh : CoherentTable w.recv)
    (hio : removed → io.removeOk = true) (tid : Nat) :
    FolderStep removed w (w.cancelled io tid) none := by
  unfold cancelled
  split_ifs
  · exact (plain_sendTaskClear w).folder
  · cases w.recvTaskFind tid with
    | none => exact (Plain.refl w).folder
    | some i => exact .clear hcoh hio (.refl w) i

/-- `/cancel` does, once its frame is out. -/
theorem cancelTid_folder (hcoh : CoherentTable w.recv)
    (hio : removed → io.removeOk = true) (tid : Nat) :
    FolderStep removed w (w.cancelTid io tid).1 none := by
  have hsent := plain_send w (tidFrame msgFileCancel tid).encode
  have hline : Silent (utf8 "已取消 #" ++ (decimal tid ++ utf8 "。")) :=
    silent_append (by decide +kernel) (by decide +kernel) _
  unfold cancelTid
  rw [sendTid_eq]
  split_ifs
  · -- the client's own transfer
    cases io.sendOk with
    | false => exact (hsent false).folder
    | true =>
      exact (((hsent true).trans (plain_sendTaskClear _)).trans (plain_print _ hline)).folder
  · cases w.recvTaskFind tid with
    | none => exact (plain_noSuchTransfer w tid).folder
    | some i =>
      cases io.sendOk with
      | false => exact (hsent false).folder
      | true => exact (FolderStep.clear hcoh hio (hsent true) i).then (plain_print _ hline).still

/-- Error 300 gives up the open file, the other errors none. -/
theorem fileHandleError_folder (hcoh : CoherentTable w.recv) (hio : removed → io.removeOk = true)
    (code : Nat) : FolderStep removed w (w.fileHandleError io code) none := by
  unfold fileHandleError
  by_cases h200 : code = errNoSuchUser
  · rw [if_pos h200]
    split_ifs
    · exact (plain_sendTaskClear w).folder
    · exact (Plain.refl w).folder
  rw [if_neg h200]
  by_cases h300 : code = errTransferState
  swap
  · rw [if_neg h300]
    exact (Plain.refl w).folder
  rw [if_pos h300]
  dsimp only
  have hplain := plain_ifSendTaskClear w
  generalize (if w.send.busy then w.sendTaskClear else w) = w1 at hplain ⊢
  cases w1.recvTaskActive with
  | none => exact hplain.folder
  | some i => exact .clear hcoh hio hplain i

/-- Resetting slots none of which has a file. -/
theorem still_resetRecv_foldl (hcoh : CoherentTable w.recv) (io : Slot → Io) (l : List Slot)
    (hnone : ∀ j, w.openPath j = none) : Still w (l.foldl (resetRecv io) w) := by
  induction l generalizing w with
  | nil => exact .refl w
  | cons k l ih =>
    have hstep : Still w (resetRecv io w k) ∧ CoherentTable (resetRecv io w k).recv := by
      unfold resetRecv
      split_ifs
      · refine ⟨still_recvTaskClear hcoh _ (openPath_eq_none.mp (hnone k)), ?_⟩
        simp only [recv, tasks_recvTaskClear]
        exact hcoh.update k (.of_pending rfl rfl rfl rfl) (by simp [RecvTask.zero])
      · exact ⟨.refl w, hcoh⟩
    exact hstep.1.trans (ih hstep.2 fun j => by rw [hstep.1.opened, hnone])

/-- Resetting slots discards the file of the open task, if it is among them. -/
theorem resetRecv_foldl_folder (hcoh : CoherentTable w.recv) {io : Slot → Io}
    (hio : removed → ∀ i, (io i).removeOk = true) (l : List Slot) :
    FolderStep removed w (l.foldl (resetRecv io) w) none := by
  induction l generalizing w with
  | nil => exact .still (.refl w)
  | cons k l ih =>
    rw [List.foldl_cons]
    by_cases hbusy : (w.recv k).busy = true
    swap
    · rw [resetRecv, if_neg hbusy]
      exact ih hcoh
    rw [resetRecv, if_pos hbusy]
    have hcoh' : CoherentTable (w.recvTaskClear (io k) k).recv := by
      simp only [recv, tasks_recvTaskClear]
      exact hcoh.update k (.of_pending rfl rfl rfl rfl) (by simp [RecvTask.zero])
    cases hfp : (w.recv k).fp with
    | none => exact .after (still_recvTaskClear hcoh _ hfp) (ih hcoh')
    | some fh =>
      -- it was the only file
      refine (FolderStep.clear hcoh (fun h => hio h k) (.refl w) k).then
        (still_resetRecv_foldl hcoh' io l
          (openPath_cleared (w := w) (i := k) (by simp) fun j => ?_))
      exact openPath_of_ne hcoh (openPath_eq_some.mpr ⟨fh, hfp, rfl⟩)

/-- The reset gives up the open file. -/
theorem fileResetAll_folder (hcoh : CoherentTable w.recv) {io : Slot → Io}
    (hio : removed → ∀ i, (io i).removeOk = true) :
    FolderStep removed w (w.fileResetAll io) none := by
  have hplain := plain_ifSendTaskClear w
  -- the send task first, then the slots in order
  refine .after hplain.still (resetRecv_foldl_folder ?_ hio _)
  rw [recv, hplain.recv]
  exact hcoh

/-! ### The entry points -/

/-- Announcements, by their kind; the complete one may be the send task's. -/
theorem fileHandleAnnouncement_folder (hcoh : CoherentTable w.recv) (hfiles : FilesOk w)
    (hio : removed → io.removeOk = true) (text : Bytes) :
    FolderStep removed w (w.fileHandleAnnouncement io text)
      ((FileEvent.announcement text io).keeps w) := by
  unfold fileHandleAnnouncement FileEvent.keeps FileEvent.completes
  dsimp only
  cases fileParseAnnouncement text with
  | none => exact (Plain.refl w).folder
  | some res =>
    obtain ⟨kind, tid⟩ := res
    dsimp only
    cases kind with
    | sendPending =>
      rw [announced]
      split_ifs
      · exact (plain_setSend w _).folder
      · exact (Plain.refl w).folder
    | recvPending => exact recvAnnounceIncoming_folder hcoh tid
    | accepted => exact (plain_accepted w tid).folder
    | rejected => exact (plain_rejected w tid).folder
    | cancelled => exact cancelled_folder hcoh hio tid
    | cancelledDisc => exact cancelled_folder hcoh hio tid
    | complete =>
      rw [announced]
      dsimp only
      split_ifs
      · exact (plain_sendTaskClear w).folder
      · exact recvTaskComplete_folder hcoh hfiles hio tid

/-- Control frames, by their type. -/
theorem controlFrame_folder (hcoh : CoherentTable w.recv) (hfiles : FilesOk w)
    (hio : removed → io.removeOk = true) (type : UInt8) (tid : Nat) :
    FolderStep removed w (w.controlFrame io type tid)
      (if type = msgFileComplete then w.keptBy io tid else none) := by
  unfold controlFrame
  by_cases haccept : type = msgFileAccept
  · rw [if_pos haccept, if_neg (by rw [haccept]; decide)]
    exact (plain_accepted w tid).folder
  rw [if_neg haccept]
  by_cases hreject : type = msgFileReject
  · rw [if_pos hreject, if_neg (by rw [hreject]; decide)]
    exact (plain_rejected w tid).folder
  rw [if_neg hreject]
  by_cases hcancel : type = msgFileCancel
  · rw [if_pos hcancel, if_neg (by rw [hcancel]; decide)]
    exact cancelled_folder hcoh hio tid
  rw [if_neg hcancel]
  split_ifs
  · exact recvTaskComplete_folder hcoh hfiles hio tid
  · exact (Plain.refl w).folder

/-- Frames, by their type and length. -/
theorem fileFrame_folder (hcoh : CoherentTable w.recv) (hfiles : FilesOk w)
    (hio : removed → io.removeOk = true) (type : UInt8) (payload : Bytes) :
    FolderStep removed w (w.fileFrame io type payload)
      ((FileEvent.frame type payload io).keeps w) := by
  by_cases h4 : payload.length = 4
  · rw [fileFrame_control w io type h4]
    have hctrl := controlFrame_folder hcoh hfiles hio type (utilsReadU32Be payload)
    have hkeeps : (FileEvent.frame type payload io).keeps w =
        if type = msgFileComplete then w.keptBy io (utilsReadU32Be payload) else none := by
      simp only [FileEvent.keeps, FileEvent.completes, h4, true_and]
      split_ifs <;> rfl
    rw [hkeeps]
    exact hctrl
  have hnone : (FileEvent.frame type payload io).keeps w = none := by
    simp [FileEvent.keeps, FileEvent.completes, h4]
  rw [hnone]
  by_cases hinit : type = msgFileInit
  · subst hinit
    rw [fileFrame_init w io h4]
    cases initFields payload with
    | none => exact (Plain.refl w).folder
    | some f => exact recvFillInit_folder w f
  by_cases hchunk : type = msgFileChunk ∧ 12 ≤ payload.length
  · obtain ⟨rfl, h12⟩ := hchunk
    rw [fileFrame_chunk w io h12]
    exact recvChunk_folder hcoh hio _ _ _
  · rw [fileFrame_other w io h4 hinit fun h => by
      by_contra hlen
      exact hchunk ⟨h, by omega⟩]
    exact (Plain.refl w).folder

end World

/-- **Step specification** for the folder. -/
theorem fileStep_folder {w : World} (hcoh : CoherentTable w.recv) (hfiles : FilesOk w)
    (e : FileEvent) : w.FolderStep e.RemovesWork (fileStep w e) (e.keeps w) := by
  have husage : ∀ text, ¬ utf8 "文件 #" <+: text → w.FolderStep e.RemovesWork (w.print text) none :=
    fun text h => (World.plain_print w (silent_lit h)).folder
  cases e with
  | sendfile line io => exact (w.plain_sendfile io line).folder
  | accept line io =>
    rw [fileStep, World.fileCmdAccept]
    cases commandsParseTidArg (line.drop 7) with
    | none => exact husage _ (by decide +kernel)
    | some tid => exact World.acceptTid_folder hcoh id tid
  | reject line io =>
    rw [fileStep, World.fileCmdReject]
    cases commandsParseTidArg (line.drop 7) with
    | none => exact husage _ (by decide +kernel)
    | some tid => exact World.rejectTid_folder hcoh id tid
  | cancel line io =>
    rw [fileStep, World.fileCmdCancel]
    cases commandsParseTidArg (line.drop 7) with
    | none => exact husage _ (by decide +kernel)
    | some tid => exact World.cancelTid_folder hcoh id tid
  | announcement text io => exact World.fileHandleAnnouncement_folder hcoh hfiles id text
  | frame type payload io => exact World.fileFrame_folder hcoh hfiles id type payload
  | error code io => exact World.fileHandleError_folder hcoh id code
  | tick io => exact (w.plain_fileSendTick io).folder
  | reset io => exact World.fileResetAll_folder hcoh id

end TCPClient
