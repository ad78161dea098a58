import TCPClient.Views
import TCPClient.RecvProtocol
import TCPClient.FolderSpec
import TCPClient.Lib.Unwinding

namespace TCPClient

open Octets Memory Unwinding

/-!
# `file.c` — one file out and one file in do not disturb each other

The send task and the receive table are two machines in one module.

* `sending_step` — a call makes of the send task what it makes of it in a module without receive
  tasks and files, and sends the same frames for it;
* `receiving_step` — it makes of the receive table and the files what it makes of them in a module
  without a send task, unless an id is in both;
* `sending_undisturbed` and `receiving_undisturbed` — so two runs with the same calls for one of
  the two are the same to it, whatever calls for the other stand between.
-/

/-- The receiving side of the module: its tasks, their counter, and the files. -/
structure RecvHalf where
  table : Table
  seq : Nat
  disk : Bytes → Option Bytes

namespace World

def recvHalf (w : World) : RecvHalf := ⟨w.tasks.recv, w.tasks.recvSeq, w.disk⟩

/-- A module with this send task and nothing else. -/
def sending (t : SendTask) : World := ⟨⟨t, fun _ => RecvTask.zero, 0⟩, fun _ => none, []⟩

/-- A module with these receive tasks and files, and nothing else. -/
def receiving (h : RecvHalf) : World := ⟨⟨SendTask.zero, h.table, h.seq⟩, h.disk, []⟩

/-- No id is in both: a client that sends to itself has two tasks for one. -/
def Apart (w : World) : Prop :=
  ∀ i, (w.recv i).busy = true → w.sendTaskMatches (w.recv i).tid = false

instance : DecidablePred Apart := fun w =>
  inferInstanceAs (Decidable (∀ i : Slot, (w.recv i).busy = true →
    w.sendTaskMatches (w.recv i).tid = false))

/-- What the send task answers to, no receive task answers to. -/
theorem Apart.find_none {w : World} (h : w.Apart) {tid : Nat}
    (hmatch : w.sendTaskMatches tid = true) : w.recvTaskFind tid = none := by
  cases hfind : w.recvTaskFind tid with
  | none => rfl
  | some i =>
    obtain ⟨hbusy, rfl⟩ := recvTaskFind_eq_some hfind
    exact absurd hmatch (by simp [h i hbusy])

end World

open World

/-- The rest of a client around its send task. -/
def SendBlind.around (w : World) : SendBlind where
  map x := ⟨⟨x.tasks.send, w.tasks.recv, w.tasks.recvSeq⟩, w.disk, w.log ++ x.log⟩
  emit_map x e := by simp [emit]
  send_map _ := rfl
  setSend_map _ _ := rfl

/-- The rest of a client around its receiving side. -/
def RecvBlind.around (w : World) : RecvBlind where
  map x := ⟨⟨w.tasks.send, x.tasks.recv, x.tasks.recvSeq⟩, x.disk, w.log ++ x.log⟩
  emit_map x e := by simp [emit]
  recv_map _ := rfl
  disk_map _ := rfl
  setDisk_map _ _ _ := rfl
  setRecv_map _ _ _ := rfl
  recvSeq_map _ := rfl
  numbered_map _ := rfl

/-- A client is its send task with the rest of it around. -/
theorem SendBlind.around_sending (w : World) :
    (SendBlind.around w).map (sending w.send) = w := by
  simp [SendBlind.around, sending]

/-- A client is its receiving side with the rest of it around. -/
theorem RecvBlind.around_receiving (w : World) :
    (RecvBlind.around w).map (receiving w.recvHalf) = w := by
  simp [RecvBlind.around, receiving, recvHalf]

/-- The rest has handed over its own frames before. -/
theorem SendBlind.framesTried_around (w x : World) :
    ((SendBlind.around w).map x).framesTried = w.framesTried ++ x.framesTried := by
  simp [SendBlind.around, framesTried]

theorem RecvBlind.framesTried_around (w x : World) :
    ((RecvBlind.around w).map x).framesTried = w.framesTried ++ x.framesTried := by
  simp [RecvBlind.around, framesTried]

/-! ### Calls and the half they are for -/

/-- The calls that concern the send task. -/
def FileEvent.forSend : FileEvent → Bool
  | .sendfile _ _ | .cancel _ _ | .tick _ | .reset _ => true
  | .accept _ _ | .reject _ _ => false
  | .announcement text _ => (fileParseAnnouncement text).any fun a => a.1 ≠ .recvPending
  | .frame type payload _ =>
    payload.length = 4 ∧ (type = msgFileAccept ∨ type = msgFileReject ∨ type = msgFileCancel)
  | .error code _ => code = errNoSuchUser ∨ code = errTransferState

/-- The calls that concern the receiving side. -/
def FileEvent.forRecv : FileEvent → Bool
  | .sendfile _ _ | .tick _ => false
  | .accept _ _ | .reject _ _ | .cancel _ _ | .reset _ => true
  | .announcement text _ => (fileParseAnnouncement text).any fun a =>
      a.1 ∈ [.recvPending, .cancelled, .cancelledDisc, .complete]
  | .frame type payload _ =>
    if payload.length = 4 then type = msgFileCancel ∨ type = msgFileComplete
    else type = msgFileInit ∨ type = msgFileChunk
  | .error code _ => code = errTransferState

/-- The frames of a call that are not the send task's. -/
def tableFrames (w : World) (e : FileEvent) : List (Bytes × Bool) :=
  if sendFrames w e = [] then eventFrames w e else []

/-- A call that leaves the frames as they were has none. -/
theorem eventFrames_of_silent {w : World} {e : FileEvent}
    (h : (fileStep w e).framesTried = w.framesTried) : eventFrames w e = [] :=
  eventFrames_eq (by rw [h, List.append_nil])

/-! ### The send task by itself -/

namespace World

variable (w : World)

/-- `/cancel` ends the send task it names, if its frame goes out. -/
theorem send_cancelTid_eq (io : Io) (tid : Nat) :
    (w.cancelTid io tid).1.send =
      if w.sendTaskMatches tid ∧ io.sendOk then SendTask.zero else w.send := by
  by_cases hm : w.sendTaskMatches tid = true
  · unfold cancelTid
    rw [if_pos hm, sendTid_eq]
    cases io.sendOk <;> simp [hm]
  · rw [send_cancelTid hm]
    simp [hm]

/-- The cancellation by the peer ends it in any case. -/
theorem send_cancelled_eq (io : Io) (tid : Nat) :
    (w.cancelled io tid).send = if w.sendTaskMatches tid then SendTask.zero else w.send := by
  unfold cancelled
  split_ifs
  · simp
  · cases w.recvTaskFind tid <;> simp

/-- `/accept` answers an offer, and leaves the send task alone. -/
theorem send_fileCmdAccept (io : Io) (line : Bytes) :
    (w.fileCmdAccept io line).1.send = w.send := by
  unfold fileCmdAccept
  cases commandsParseTidArg (line.drop 7) with
  | none => rfl
  | some tid => exact send_acceptTid w io tid

/-- So does `/reject`. -/
theorem send_fileCmdReject (io : Io) (line : Bytes) :
    (w.fileCmdReject io line).1.send = w.send := by
  unfold fileCmdReject
  cases commandsParseTidArg (line.drop 7) with
  | none => rfl
  | some tid => exact send_rejectTid w io tid

/-- The INIT fields are for a receive task. -/
theorem send_recvFillInit (f : InitFields) : (w.recvFillInit f).send = w.send := by
  unfold recvFillInit
  cases w.recvInitBest <;> rfl

/-- So is an offer. -/
theorem send_recvAnnounceIncoming (io : Io) (tid : Nat) :
    (w.recvAnnounceIncoming io tid).send = w.send := by
  unfold recvAnnounceIncoming
  cases w.recvTaskSlot with
  | none => simp
  | some i => rfl

/-- Clearing the open receive task leaves the send task alone. -/
theorem send_clearActive (io : Io) : (w.clearActive io).send = w.send := by
  unfold clearActive
  cases w.recvTaskActive <;> simp

/-- So does clearing all of them. -/
theorem send_resetRecv (io : Slot → Io) (slots : List Slot) :
    (slots.foldl (resetRecv io) w).send = w.send := by
  induction slots generalizing w with
  | nil => rfl
  | cons i slots ih =>
    rw [List.foldl_cons, ih, resetRecv]
    split_ifs <;> simp

/-- INIT and CHUNK are for the receiving side. -/
theorem send_longFrame (io : Io) (type : UInt8) {payload : Bytes} (h4 : payload.length ≠ 4) :
    (w.fileFrame io type payload).send = w.send := by
  by_cases hinit : type = msgFileInit
  · subst hinit
    rw [fileFrame_init w io h4]
    cases initFields payload with
    | none => rfl
    | some fields => exact send_recvFillInit w fields
  by_cases hchunk : type = msgFileChunk ∧ 12 ≤ payload.length
  · obtain ⟨rfl, h12⟩ := hchunk
    rw [fileFrame_chunk w io h12, send_recvChunk]
  · rw [fileFrame_other w io h4 hinit fun h => by
      by_contra hlen
      exact hchunk ⟨h, by omega⟩]

/-- The send task goes, if there is one. -/
theorem send_cleared :
    (if w.send.busy then w.sendTaskClear else w).send =
      if w.send.busy then SendTask.zero else w.send := by
  split_ifs <;> simp

/-- Error 300 carries no id: it ends the send task and the open receive task. -/
theorem fileHandleError_transferState (io : Io) :
    w.fileHandleError io errTransferState =
      (if w.send.busy then w.sendTaskClear else w).clearActive io := rfl

end World

namespace SendBlind

variable (f : SendBlind) (w : World)

/-- What an announcement makes of the send task depends on the send task only. -/
theorem send_announced (io : Io) (kind : FileAnnKind) (tid : Nat) :
    ((f.map w).announced io kind tid).send = (w.announced io kind tid).send := by
  have hsend : (f.map w).send = w.send := f.send_map w
  cases kind with
  | sendPending =>
    simp only [announced, hsend]
    split_ifs <;> simp
  | accepted => rw [announced, f.accepted, announced, send, f.send_map]
  | rejected => rw [announced, f.rejected, announced, send, f.send_map]
  | cancelled =>
    rw [announced, announced, send_cancelled_eq, send_cancelled_eq, hsend, f.sendTaskMatches]
  | cancelledDisc =>
    rw [announced, announced, send_cancelled_eq, send_cancelled_eq, hsend, f.sendTaskMatches]
  | recvPending =>
    rw [announced, announced, send_recvAnnounceIncoming, send_recvAnnounceIncoming, hsend]
  | complete =>
    simp only [announced, hsend, f.sendTaskMatches]
    split_ifs
    · simp
    · rw [send_recvTaskComplete, send_recvTaskComplete, hsend]

/-- So does what a control frame makes of it. -/
theorem send_controlFrame (io : Io) (type : UInt8) (tid : Nat) :
    ((f.map w).controlFrame io type tid).send = (w.controlFrame io type tid).send := by
  have hsend : (f.map w).send = w.send := f.send_map w
  unfold controlFrame
  split_ifs
  · rw [f.accepted, send, f.send_map]
  · rw [f.rejected, send, f.send_map]
  · rw [send_cancelled_eq, send_cancelled_eq, hsend, f.sendTaskMatches]
  · rw [send_recvTaskComplete, send_recvTaskComplete, hsend]
  · exact hsend

/-- So does what any frame makes of it. -/
theorem send_fileFrame (io : Io) (type : UInt8) (payload : Bytes) :
    ((f.map w).fileFrame io type payload).send = (w.fileFrame io type payload).send := by
  by_cases h4 : payload.length = 4
  · rw [fileFrame_control _ io type h4, fileFrame_control _ io type h4, f.send_controlFrame]
  · rw [send_longFrame _ io type h4, send_longFrame _ io type h4, send, f.send_map]

/-- So does what an error makes of it. -/
theorem send_fileHandleError (io : Io) (code : Nat) :
    ((f.map w).fileHandleError io code).send = (w.fileHandleError io code).send := by
  have hsend : (f.map w).send = w.send := f.send_map w
  by_cases hstate : code = errTransferState
  · subst hstate
    rw [fileHandleError_transferState, fileHandleError_transferState, send_clearActive,
      send_clearActive, send_cleared, send_cleared, hsend]
  rw [fileHandleError, fileHandleError, if_neg hstate, if_neg hstate]
  simp only [hsend]
  split_ifs
  · simp
  · exact hsend
  · exact hsend

/-- So does what the reset makes of it. -/
theorem send_fileResetAll (io : Slot → Io) :
    ((f.map w).fileResetAll io).send = (w.fileResetAll io).send := by
  have hsend : (f.map w).send = w.send := f.send_map w
  rw [fileResetAll, fileResetAll, send_resetRecv, send_resetRecv, send_cleared, send_cleared,
    hsend]

/-- The send task does not notice what the sending side does not look at. -/
theorem send_fileStep (e : FileEvent) : (fileStep (f.map w) e).send = (fileStep w e).send := by
  have hsend : (f.map w).send = w.send := f.send_map w
  cases e with
  | sendfile line io =>
    rw [fileStep, f.fileCmdSendfile]
    exact f.send_map _
  | accept line io =>
    rw [fileStep, fileStep, send_fileCmdAccept, send_fileCmdAccept, hsend]
  | reject line io =>
    rw [fileStep, fileStep, send_fileCmdReject, send_fileCmdReject, hsend]
  | cancel line io =>
    rw [fileStep, fileStep, fileCmdCancel, fileCmdCancel]
    cases commandsParseTidArg (line.drop 7) with
    | none => exact hsend
    | some tid =>
      dsimp only
      rw [send_cancelTid_eq, send_cancelTid_eq, hsend, f.sendTaskMatches]
  | announcement text io =>
    rw [fileStep, fileStep, fileHandleAnnouncement, fileHandleAnnouncement]
    cases fileParseAnnouncement text with
    | none => exact hsend
    | some ann => exact f.send_announced w io ann.1 ann.2
  | frame type payload io => exact f.send_fileFrame w io type payload
  | error code io => exact f.send_fileHandleError w io code
  | tick io =>
    rw [fileStep, f.fileSendTick]
    exact f.send_map _
  | reset io => exact f.send_fileResetAll w io

/-- The same frames are sent around it. -/
theorem eventFrames_around (t : SendTask) {e : FileEvent}
    (hstep : fileStep ((SendBlind.around w).map (sending t)) e =
      (SendBlind.around w).map (fileStep (sending t) e)) :
    eventFrames ((SendBlind.around w).map (sending t)) e = eventFrames (sending t) e := by
  refine eventFrames_eq ?_
  rw [hstep, framesTried_around, framesTried_around]
  simp [eventFrames, sending, framesTried]

end SendBlind

/-- **The send task is a machine of its own.** What a call makes of it, and the frames it sends for
    it, it makes of it in a module without anything else. -/
theorem sending_step (w : World) (e : FileEvent) :
    (fileStep w e).send = (fileStep (sending w.send) e).send ∧
      sendFrames w e = sendFrames (sending w.send) e := by
  have haround := SendBlind.around_sending w
  constructor
  · have := (SendBlind.around w).send_fileStep (sending w.send) e
    rwa [haround] at this
  -- most calls send nothing for the send task, whatever the module holds
  have hnone (hno : ∀ v, e.sendsForTask v = false) :
      sendFrames w e = sendFrames (sending w.send) e := by
    rw [sendFrames_of_not_sends (hno _), sendFrames_of_not_sends (hno _)]
  cases e with
  | sendfile line io =>
    have := SendBlind.eventFrames_around w w.send (e := .sendfile line io)
      (congrArg Prod.fst ((SendBlind.around w).fileCmdSendfile (sending w.send) io line))
    rw [sendFrames_of_sends rfl, sendFrames_of_sends rfl]
    rwa [haround] at this
  | tick io =>
    have := SendBlind.eventFrames_around w w.send (e := .tick io)
      (congrArg Prod.fst ((SendBlind.around w).fileSendTick (sending w.send) io))
    rw [sendFrames_of_sends rfl, sendFrames_of_sends rfl]
    rwa [haround] at this
  | cancel line io =>
    cases harg : commandsParseTidArg (line.drop 7) with
    | none => rw [sendFrames_cancel_none _ io harg, sendFrames_cancel_none _ io harg]
    | some tid =>
      rw [sendFrames_cancel _ io harg, sendFrames_cancel _ io harg]
      -- the task is found in both or in neither
      have hsame : (sending w.send).sendTaskMatches tid = w.sendTaskMatches tid := rfl
      have hframes {v : World} (hm : v.sendTaskMatches tid = true) :
          eventFrames v (.cancel line io) = [(cancelFrame tid, io.sendOk)] := by
        refine eventFrames_eq ?_
        rw [fileStep, fileCmdCancel, harg]
        exact (cancelTid_move harg hm io).2
      rw [hsame]
      split_ifs with hm
      · rw [hframes hm, hframes (hsame.trans hm)]
      · rfl
  | accept line io => exact hnone fun _ => rfl
  | reject line io => exact hnone fun _ => rfl
  | announcement text io => exact hnone fun _ => rfl
  | frame type payload io => exact hnone fun _ => rfl
  | error code io => exact hnone fun _ => rfl
  | reset io => exact hnone fun _ => rfl

/-- The calls that do not concern the send task leave it alone, and send nothing for it. -/
theorem send_of_not_forSend (w : World) {e : FileEvent} (he : e.forSend = false) :
    (fileStep w e).send = w.send ∧ sendFrames w e = [] := by
  cases e with
  | sendfile line io => exact absurd he (by simp [FileEvent.forSend])
  | cancel line io => exact absurd he (by simp [FileEvent.forSend])
  | tick io => exact absurd he (by simp [FileEvent.forSend])
  | reset io => exact absurd he (by simp [FileEvent.forSend])
  | accept line io => exact ⟨send_fileCmdAccept w io line, sendFrames_of_not_sends rfl⟩
  | reject line io => exact ⟨send_fileCmdReject w io line, sendFrames_of_not_sends rfl⟩
  | announcement text io =>
    refine ⟨?_, sendFrames_of_not_sends rfl⟩
    rw [fileStep, fileHandleAnnouncement]
    cases hparse : fileParseAnnouncement text with
    | none => rfl
    | some ann =>
      obtain ⟨kind, tid⟩ := ann
      -- only the offer of a file is not about the own one
      have hkind : kind = .recvPending := by simpa [FileEvent.forSend, hparse] using he
      subst hkind
      exact send_recvAnnounceIncoming w io tid
  | frame type payload io =>
    refine ⟨?_, sendFrames_of_not_sends rfl⟩
    rw [fileStep]
    by_cases h4 : payload.length = 4
    · -- of the control frames COMPLETE is left
      have htype : ¬ (type = msgFileAccept ∨ type = msgFileReject ∨ type = msgFileCancel) := by
        simpa [FileEvent.forSend, h4] using he
      rw [not_or, not_or] at htype
      rw [fileFrame_control w io type h4, controlFrame, if_neg htype.1, if_neg htype.2.1,
        if_neg htype.2.2]
      split_ifs
      · exact send_recvTaskComplete w io _
      · rfl
    · exact send_longFrame w io type h4
  | error code io =>
    have hcode : ¬ code = errNoSuchUser ∧ ¬ code = errTransferState :=
      not_or.mp (of_decide_eq_false he)
    refine ⟨?_, sendFrames_of_not_sends rfl⟩
    rw [fileStep, fileHandleError, if_neg hcode.1, if_neg hcode.2]

/-- Transfer 5 of a one-byte file goes out while transfer 7 of another comes in. -/
def oneByteEachWay : List FileEvent :=
  [.sendfile (utf8 "/sendfile bob a") ⟨true, true, 1, true, true, SendfileIo.fsizeLong_one⟩,
    .announcement ((Announcement.incoming (utf8 "al") (utf8 "b") 1).text 7) Io.ok,
    .announcement ((Announcement.waiting (utf8 "a") 1 (utf8 "bob")).text 5) Io.ok,
    .frame msgFileInit (utf8 "al" ++ [0] ++ utf8 "b" ++ [0] ++ utf8 "1" ++ [0]) Io.ok,
    .accept (utf8 "/accept 7") Io.ok,
    .frame msgFileAccept (utilsWriteU32Be 5) Io.ok,
    .frame msgFileChunk (chunkPayload 7 (0, [66])) Io.ok,
    .tick ⟨fun _ _ => [65], fun _ => true⟩,
    .frame msgFileComplete (utilsWriteU32Be 7) Io.ok,
    .tick ⟨fun _ _ => [65], fun _ => true⟩]

/-- The conditions of the unwinding theorem, for the send task. -/
theorem sending_unwinds :
    Unwinds fileStep sendFrames World.send (fun _ => True) FileEvent.forSend where
  unseen w _ he := send_of_not_forSend w he
  seen v w e _ _ hsend := by
    obtain ⟨hv, hvframes⟩ := sending_step v e
    obtain ⟨hw, hwframes⟩ := sending_step w e
    rw [hv, hw, hvframes, hwframes, hsend]
    exact ⟨rfl, rfl⟩

/-- The frames of the send task are what its machine gives out. -/
theorem taskFrames_eq_outputs (w : World) (events : List FileEvent) :
    taskFrames w events = outputs fileStep sendFrames w events := by
  induction events generalizing w with
  | nil => rfl
  | cons e events ih => rw [taskFrames, outputs, ih]

/-- **Sending goes on undisturbed.** Two clients with the same send task and the same calls for it
    end with the same send task, and send the same frames for it, whatever they receive, accept and
    are asked for between these calls. -/
theorem sending_undisturbed {v w : World} {events events' : List FileEvent}
    (hsend : v.send = w.send)
    (hcalls : events.filter FileEvent.forSend = events'.filter FileEvent.forSend) :
    (fileRun v events).send = (fileRun w events').send ∧
      taskFrames v events = taskFrames w events' := by
  rw [taskFrames_eq_outputs, taskFrames_eq_outputs]
  -- the send task needs no condition along the runs
  have hall (u : World) (es : List FileEvent) : Throughout fileStep (fun _ => True) u es :=
    throughout_of_kept (P := fun _ => True) (fun _ _ h => h) trivial es
  exact sending_unwinds.run hsend hcalls (hall v events) (hall w events')

/-- The file goes out as if nothing came in. -/
theorem sending_undisturbed_each_way :
    (fileRun (World.init fun _ => none) oneByteEachWay).send =
        (fileRun (World.init fun _ => none) (oneByteEachWay.filter FileEvent.forSend)).send ∧
      taskFrames (World.init fun _ => none) oneByteEachWay =
        taskFrames (World.init fun _ => none) (oneByteEachWay.filter FileEvent.forSend) ∧
      wentOut (taskFrames (World.init fun _ => none) oneByteEachWay) =
        [initFrame (utf8 "bob") (utf8 "a") 1, chunkFrame 5 (0, [65]), completeFrame 5] := by
  have hcalls : oneByteEachWay.filter FileEvent.forSend =
      (oneByteEachWay.filter FileEvent.forSend).filter FileEvent.forSend := by simp
  obtain ⟨hsend, hframes⟩ := sending_undisturbed (v := World.init fun _ => none)
    (w := World.init fun _ => none) rfl hcalls
  exact ⟨hsend, hframes, by decide +kernel⟩

/-! ### The receiving side by itself -/

namespace World

variable (w : World)

@[simp] theorem recvHalf_receiving (h : RecvHalf) : (receiving h).recvHalf = h := rfl

/-- The log is neither half. -/
@[simp] theorem recvHalf_emit (x : Effect) : (w.emit x).recvHalf = w.recvHalf := rfl

@[simp] theorem recvHalf_print (text : Bytes) : (w.print text).recvHalf = w.recvHalf := rfl

@[simp] theorem recvHalf_setSend (t : SendTask) : (w.setSend t).recvHalf = w.recvHalf := rfl

@[simp] theorem recvHalf_sendTaskClear : w.sendTaskClear.recvHalf = w.recvHalf := by
  simp [recvHalf]

@[simp] theorem recvHalf_map (f : RecvBlind) : (f.map w).recvHalf = w.recvHalf := by
  simp [recvHalf]

/-- An acceptance is about the own file, not about the receiving side. -/
theorem recvHalf_accepted (tid : Nat) : (w.accepted tid).recvHalf = w.recvHalf := by
  unfold accepted
  split_ifs <;> rfl

/-- So is a refusal. -/
theorem recvHalf_rejected (tid : Nat) : (w.rejected tid).recvHalf = w.recvHalf := by
  unfold rejected
  split_ifs <;> simp

/-- So is the announcement of its id. -/
theorem recvHalf_sendPending (io : Io) (tid : Nat) :
    (w.announced io .sendPending tid).recvHalf = w.recvHalf := by
  unfold announced
  split_ifs <;> rfl

/-- Only an announcement numbers a task. -/
theorem recvSeq_fileStep {e : FileEvent} (he : ∀ text io, e ≠ .announcement text io) :
    (fileStep w e).recvSeq = w.recvSeq := by
  have htable := (fileStep_spec w e).table
  generalize (fileStep w e).recv = r' at htable
  generalize (fileStep w e).recvSeq = seq' at htable ⊢
  cases htable with
  | announce text io => exact absurd rfl (he text io)
  | _ => rfl

/-- `/sendfile` is no business of the receiving side. -/
theorem recvHalf_sendfile (line : Bytes) (io : SendfileIo) :
    (fileStep w (.sendfile line io)).recvHalf = w.recvHalf := by
  have hplain : Plain w (fileStep w (.sendfile line io)) := plain_sendfile w io line
  rw [recvHalf, recvHalf, hplain.recv, hplain.disk, ← recvSeq, recvSeq_fileStep w (by simp)]

/-- Neither is a tick. -/
theorem recvHalf_tick (io : TickIo) : (fileStep w (.tick io)).recvHalf = w.recvHalf := by
  have hplain : Plain w (fileStep w (.tick io)) := plain_fileSendTick w io
  rw [recvHalf, recvHalf, hplain.recv, hplain.disk, ← recvSeq, recvSeq_fileStep w (by simp)]

end World

/-- A call without frames has none about receive tasks. -/
theorem tableFrames_of_silent {w : World} {e : FileEvent} (h : eventFrames w e = []) :
    tableFrames w e = [] := by
  unfold tableFrames
  split_ifs
  · exact h
  · rfl

/-- All frames of `/sendfile` and of a tick are the send task's. -/
theorem tableFrames_of_all {w : World} {e : FileEvent} (h : sendFrames w e = eventFrames w e) :
    tableFrames w e = [] := by
  unfold tableFrames
  split_ifs with hnone
  · rw [← h, hnone]
  · rfl

/-- Where none of the frames is the send task's, all are the table's. -/
theorem tableFrames_of_none {w : World} {e : FileEvent} (h : sendFrames w e = []) :
    tableFrames w e = eventFrames w e := if_pos h

/-- The receiving side does by itself what it does in the client. -/
def ReceivesAlone (w : World) (e : FileEvent) : Prop :=
  (fileStep w e).recvHalf = (fileStep (receiving w.recvHalf) e).recvHalf ∧
    tableFrames w e = tableFrames (receiving w.recvHalf) e

/-- A call that does not look at the send task. -/
theorem receivesAlone_of_blind (w : World) {e : FileEvent} (hsend : sendFrames w e = [])
    (halone : sendFrames (receiving w.recvHalf) e = [])
    (hblind : fileStep ((RecvBlind.around w).map (receiving w.recvHalf)) e =
      (RecvBlind.around w).map (fileStep (receiving w.recvHalf) e)) : ReceivesAlone w e := by
  rw [RecvBlind.around_receiving] at hblind
  constructor
  · rw [hblind, recvHalf_map]
  · rw [tableFrames_of_none hsend, tableFrames_of_none halone]
    refine eventFrames_eq ?_
    rw [hblind, RecvBlind.framesTried_around]
    simp [eventFrames, receiving, framesTried]

/-- A call that sends nothing. -/
theorem receivesAlone_of_silent {w : World} {e : FileEvent}
    (hframes : ∀ v, (fileStep v e).framesTried = v.framesTried)
    (hhalf : (fileStep w e).recvHalf = (fileStep (receiving w.recvHalf) e).recvHalf) :
    ReceivesAlone w e :=
  ⟨hhalf, by
    rw [tableFrames_of_silent (eventFrames_of_silent (hframes w)),
      tableFrames_of_silent (eventFrames_of_silent (hframes _))]⟩

namespace World

variable {w : World}

/-- What does not look at the send task. -/
theorem recvHalf_of_blind (op : World → World)
    (hop : ∀ (f : RecvBlind) v, op (f.map v) = f.map (op v)) (w : World) :
    (op w).recvHalf = (op (receiving w.recvHalf)).recvHalf := by
  have haround := hop (RecvBlind.around w) (receiving w.recvHalf)
  rw [RecvBlind.around_receiving] at haround
  rw [haround, recvHalf_map]

/-- Without a send task no id is the own file's. -/
theorem sendTaskMatches_receiving (h : RecvHalf) (tid : Nat) :
    ¬ (receiving h).sendTaskMatches tid = true := by
  simp [sendTaskMatches, receiving, SendTask.zero]

/-- Where no id is in both, a cancellation by the peer finds the receive task that has it. -/
theorem Apart.recvHalf_cancelled (h : w.Apart) (io : Io) (tid : Nat) :
    (w.cancelled io tid).recvHalf = ((receiving w.recvHalf).cancelled io tid).recvHalf := by
  have hfind : (receiving w.recvHalf).recvTaskFind tid = w.recvTaskFind tid := rfl
  rw [cancelled, cancelled, if_neg (sendTaskMatches_receiving _ tid), hfind]
  split_ifs with hmatch
  · -- the id is the send task's, so nobody is found in the table
    rw [h.find_none hmatch, recvHalf_sendTaskClear]
    rfl
  · cases w.recvTaskFind tid with
    | none => rfl
    | some i => exact recvHalf_of_blind (·.recvTaskClear io i) (fun f v => f.recvTaskClear v io i) w

/-- So does a confirmation. -/
theorem Apart.recvHalf_complete (h : w.Apart) (io : Io) (tid : Nat) :
    (w.announced io .complete tid).recvHalf =
      ((receiving w.recvHalf).announced io .complete tid).recvHalf := by
  have hfind : (receiving w.recvHalf).recvTaskFind tid = w.recvTaskFind tid := rfl
  have hidle : ¬ ((receiving w.recvHalf).sendTaskMatches tid = true ∧
      (receiving w.recvHalf).send.state = .waitComplete) :=
    fun hboth => sendTaskMatches_receiving _ tid hboth.1
  rw [announced, announced, if_neg hidle]
  split_ifs with hmatch
  · -- the confirmation of the own file, which no receive task waits for
    rw [recvHalf_sendTaskClear, recvTaskComplete, hfind, h.find_none hmatch.1]
    rfl
  · exact recvHalf_of_blind (·.recvTaskComplete io tid) (fun f v => f.recvTaskComplete v io tid) w

/-- Every announcement but the offer of a file. -/
theorem Apart.recvHalf_announced (h : w.Apart) (io : Io) (tid : Nat) {kind : FileAnnKind}
    (hkind : kind ≠ .recvPending) :
    (w.announced io kind tid).recvHalf =
      ((receiving w.recvHalf).announced io kind tid).recvHalf := by
  cases kind with
  | sendPending => rw [recvHalf_sendPending, recvHalf_sendPending, recvHalf_receiving]
  | accepted => rw [announced, announced, recvHalf_accepted, recvHalf_accepted, recvHalf_receiving]
  | rejected => rw [announced, announced, recvHalf_rejected, recvHalf_rejected, recvHalf_receiving]
  | cancelled => exact h.recvHalf_cancelled io tid
  | cancelledDisc => exact h.recvHalf_cancelled io tid
  | complete => exact h.recvHalf_complete io tid
  | recvPending => exact absurd rfl hkind

/-- So does a control frame. -/
theorem Apart.recvHalf_controlFrame (h : w.Apart) (io : Io) (type : UInt8) (tid : Nat) :
    (w.controlFrame io type tid).recvHalf =
      ((receiving w.recvHalf).controlFrame io type tid).recvHalf := by
  unfold controlFrame
  split_ifs
  · rw [recvHalf_accepted, recvHalf_accepted, recvHalf_receiving]
  · rw [recvHalf_rejected, recvHalf_rejected, recvHalf_receiving]
  · exact h.recvHalf_cancelled io tid
  · exact recvHalf_of_blind (·.recvTaskComplete io tid) (fun f v => f.recvTaskComplete v io tid) w
  · rfl

/-- The send task goes, if there is one. -/
theorem recvHalf_cleared (w : World) :
    (if w.send.busy then w.sendTaskClear else w).recvHalf = w.recvHalf := by
  split_ifs <;> simp

/-- An error names no task, so it needs no such condition. -/
theorem recvHalf_fileHandleError (w : World) (io : Io) (code : Nat) :
    (w.fileHandleError io code).recvHalf =
      ((receiving w.recvHalf).fileHandleError io code).recvHalf := by
  by_cases hstate : code = errTransferState
  · subst hstate
    have hop := recvHalf_of_blind (·.clearActive io) fun f v => f.clearActive v io
    rw [fileHandleError_transferState, fileHandleError_transferState, hop, recvHalf_cleared]
    rfl
  rw [fileHandleError, fileHandleError, if_neg hstate, if_neg hstate]
  split_ifs <;> simp

/-- The reset needs none either. -/
theorem recvHalf_fileResetAll (w : World) (io : Slot → Io) :
    (w.fileResetAll io).recvHalf = ((receiving w.recvHalf).fileResetAll io).recvHalf := by
  have hop := recvHalf_of_blind (List.foldl (resetRecv io) · (List.finRange fileMaxRecvPending))
    fun f v => f.resetRecv_slots v io (List.finRange fileMaxRecvPending)
  rw [fileResetAll, hop, recvHalf_cleared]
  rfl

end World

/-- INIT and CHUNK do not look at the send task. -/
theorem RecvBlind.longFrame (f : RecvBlind) (w : World) (io : Io) (type : UInt8) {payload : Bytes}
    (h4 : payload.length ≠ 4) :
    (f.map w).fileFrame io type payload = f.map (w.fileFrame io type payload) := by
  by_cases hinit : type = msgFileInit
  · subst hinit
    rw [fileFrame_init _ io h4, fileFrame_init _ io h4]
    cases initFields payload with
    | none => rfl
    | some fields => exact f.recvFillInit w fields
  by_cases hchunk : type = msgFileChunk ∧ 12 ≤ payload.length
  · obtain ⟨rfl, h12⟩ := hchunk
    rw [fileFrame_chunk _ io h12, fileFrame_chunk _ io h12, f.recvChunk]
  · have hshort : type = msgFileChunk → payload.length < 12 := fun h => by
      by_contra hlen
      exact hchunk ⟨h, by omega⟩
    rw [fileFrame_other _ io h4 hinit hshort, fileFrame_other _ io h4 hinit hshort]

/-- Neither does a `/cancel` that does not find it. -/
theorem RecvBlind.cancelTid (f : RecvBlind) {w : World} {tid : Nat}
    (hmap : ¬ (f.map w).sendTaskMatches tid = true) (hm : ¬ w.sendTaskMatches tid = true)
    (io : Io) : (f.map w).cancelTid io tid = f.res (w.cancelTid io tid) := by
  rw [World.cancelTid, World.cancelTid, if_neg hmap, if_neg hm, f.recvTaskFind]
  cases w.recvTaskFind tid with
  | none => simp [LogBlind.res]
  | some i => cases io.sendOk <;> simp [LogBlind.res, sendTid_eq]

/-- `/cancel` is for the half that has the id. -/
theorem World.Apart.receives_cancel {w : World} (h : w.Apart) (line : Bytes) (io : Io) :
    ReceivesAlone w (.cancel line io) := by
  cases harg : commandsParseTidArg (line.drop 7) with
  | none =>
    have hsend (v : World) : sendFrames v (.cancel line io) = [] :=
      sendFrames_cancel_none v io harg
    refine receivesAlone_of_blind w (hsend _) (hsend _) ?_
    simp [fileStep, fileCmdCancel, harg]
  | some tid =>
    have hstep (v : World) : fileStep v (.cancel line io) = (v.cancelTid io tid).1 := by
      rw [fileStep, fileCmdCancel, harg]
    have hfind : (receiving w.recvHalf).recvTaskFind tid = w.recvTaskFind tid := rfl
    have halone : sendFrames (receiving w.recvHalf) (.cancel line io) = [] := by
      rw [sendFrames_cancel _ io harg, if_neg (sendTaskMatches_receiving _ tid)]
    by_cases hmatch : w.sendTaskMatches tid = true
    · -- the CANCEL frame is the send task's, and in the table there is nothing to cancel
      have hnone : fileStep (receiving w.recvHalf) (.cancel line io) =
          (receiving w.recvHalf).noSuchTransfer tid := by
        rw [hstep, cancelTid, if_neg (sendTaskMatches_receiving _ tid), hfind,
          h.find_none hmatch]
      constructor
      · rw [hnone, hstep, cancelTid, if_pos hmatch, sendTid_eq]
        cases io.sendOk <;> simp [noSuchTransfer]
      · have hall : sendFrames w (.cancel line io) = eventFrames w (.cancel line io) := by
          rw [sendFrames_cancel w io harg, if_pos hmatch]
        rw [tableFrames_of_all hall, tableFrames_of_silent (eventFrames_of_silent _)]
        rw [hnone, noSuchTransfer, framesTried_print]
    · -- both look into the table
      refine receivesAlone_of_blind w ?_ halone ?_
      · rw [sendFrames_cancel w io harg, if_neg hmatch]
      · rw [hstep, hstep]
        refine congrArg Prod.fst ((RecvBlind.around w).cancelTid ?_ ?_ io)
        · rwa [RecvBlind.around_receiving]
        · exact sendTaskMatches_receiving _ tid

/-- **The receiving side is a machine of its own**, as long as no id is in both. -/
theorem receiving_step {w : World} (h : w.Apart) (e : FileEvent) : ReceivesAlone w e := by
  cases e with
  | sendfile line io =>
    refine ⟨?_, ?_⟩
    · rw [recvHalf_sendfile, recvHalf_sendfile, recvHalf_receiving]
    · rw [tableFrames_of_all (sendFrames_of_sends rfl),
        tableFrames_of_all (sendFrames_of_sends rfl)]
  | tick io =>
    refine ⟨?_, ?_⟩
    · rw [recvHalf_tick, recvHalf_tick, recvHalf_receiving]
    · rw [tableFrames_of_all (sendFrames_of_sends rfl),
        tableFrames_of_all (sendFrames_of_sends rfl)]
  | accept line io =>
    exact receivesAlone_of_blind w (sendFrames_of_not_sends rfl) (sendFrames_of_not_sends rfl)
      (congrArg Prod.fst ((RecvBlind.around w).fileCmdAccept _ io line))
  | reject line io =>
    exact receivesAlone_of_blind w (sendFrames_of_not_sends rfl) (sendFrames_of_not_sends rfl)
      (congrArg Prod.fst ((RecvBlind.around w).fileCmdReject _ io line))
  | cancel line io => exact h.receives_cancel line io
  | announcement text io =>
    cases hparse : fileParseAnnouncement text with
    | none =>
      refine receivesAlone_of_blind w (sendFrames_of_not_sends rfl) (sendFrames_of_not_sends rfl) ?_
      simp [fileStep, fileHandleAnnouncement, hparse]
    | some ann =>
      obtain ⟨kind, tid⟩ := ann
      have hstep (v : World) : fileStep v (.announcement text io) = v.announced io kind tid := by
        rw [fileStep, fileHandleAnnouncement, hparse]
      by_cases hkind : kind = .recvPending
      · -- the one announcement that may be answered
        subst hkind
        refine receivesAlone_of_blind w (sendFrames_of_not_sends rfl)
          (sendFrames_of_not_sends rfl) ?_
        rw [hstep, hstep]
        exact (RecvBlind.around w).recvAnnounceIncoming _ io tid
      · refine receivesAlone_of_silent (fun v => ?_) ?_
        · rw [hstep, framesTried_announced v io tid hkind]
        · rw [hstep, hstep, h.recvHalf_announced io tid hkind]
  | frame type payload io =>
    by_cases h4 : payload.length = 4
    · have hstep (v : World) : fileStep v (.frame type payload io) =
          v.controlFrame io type (utilsReadU32Be payload) := fileFrame_control v io type h4
      refine receivesAlone_of_silent (fun v => ?_) ?_
      · rw [hstep, framesTried_controlFrame]
      · rw [hstep, hstep, h.recvHalf_controlFrame]
    · exact receivesAlone_of_blind w (sendFrames_of_not_sends rfl) (sendFrames_of_not_sends rfl)
        ((RecvBlind.around w).longFrame _ io type h4)
  | error code io =>
    exact receivesAlone_of_silent (fun v => v.framesTried_fileHandleError io code)
      (recvHalf_fileHandleError w io code)
  | reset io =>
    exact receivesAlone_of_silent (fun v => v.framesTried_fileResetAll io)
      (recvHalf_fileResetAll w io)

/-- The calls that do not concern the receiving side leave it alone, and send nothing for it. -/
theorem recvHalf_of_not_forRecv (w : World) {e : FileEvent} (he : e.forRecv = false) :
    (fileStep w e).recvHalf = w.recvHalf ∧ tableFrames w e = [] := by
  cases e with
  | sendfile line io =>
    exact ⟨recvHalf_sendfile w line io, tableFrames_of_all (sendFrames_of_sends rfl)⟩
  | tick io => exact ⟨recvHalf_tick w io, tableFrames_of_all (sendFrames_of_sends rfl)⟩
  | accept line io => exact absurd he (by simp [FileEvent.forRecv])
  | reject line io => exact absurd he (by simp [FileEvent.forRecv])
  | cancel line io => exact absurd he (by simp [FileEvent.forRecv])
  | reset io => exact absurd he (by simp [FileEvent.forRecv])
  | announcement text io =>
    cases hparse : fileParseAnnouncement text with
    | none =>
      have hstep : fileStep w (.announcement text io) = w := by
        rw [fileStep, fileHandleAnnouncement, hparse]
      exact ⟨by rw [hstep], tableFrames_of_silent (eventFrames_of_silent (by rw [hstep]))⟩
    | some ann =>
      obtain ⟨kind, tid⟩ := ann
      have hstep : fileStep w (.announcement text io) = w.announced io kind tid := by
        rw [fileStep, fileHandleAnnouncement, hparse]
      -- what is left is about the own file
      have hkind : kind = .sendPending ∨ kind = .accepted ∨ kind = .rejected := by
        cases kind <;> simp [FileEvent.forRecv, hparse] at he ⊢
      have hframes : (fileStep w (.announcement text io)).framesTried = w.framesTried := by
        rw [hstep, framesTried_announced w io tid]
        rintro rfl
        simp at hkind
      refine ⟨?_, tableFrames_of_silent (eventFrames_of_silent hframes)⟩
      rw [hstep]
      obtain rfl | rfl | rfl := hkind
      · exact recvHalf_sendPending w io tid
      · exact recvHalf_accepted w tid
      · exact recvHalf_rejected w tid
  | frame type payload io =>
    by_cases h4 : payload.length = 4
    · have hstep : fileStep w (.frame type payload io) =
          w.controlFrame io type (utilsReadU32Be payload) := fileFrame_control w io type h4
      rw [FileEvent.forRecv, if_pos h4] at he
      have htype := not_or.mp (of_decide_eq_false he)
      have hframes : (fileStep w (.frame type payload io)).framesTried = w.framesTried := by
        rw [hstep, framesTried_controlFrame]
      refine ⟨?_, tableFrames_of_silent (eventFrames_of_silent hframes)⟩
      rw [hstep, controlFrame, if_neg htype.1, if_neg htype.2]
      split_ifs
      · exact recvHalf_accepted w _
      · exact recvHalf_rejected w _
      · rfl
    · rw [FileEvent.forRecv, if_neg h4] at he
      have htype := not_or.mp (of_decide_eq_false he)
      have hstep : fileStep w (.frame type payload io) = w :=
        fileFrame_other w io h4 htype.1 fun h => absurd h htype.2
      exact ⟨by rw [hstep], tableFrames_of_silent (eventFrames_of_silent (by rw [hstep]))⟩
  | error code io =>
    refine ⟨?_, tableFrames_of_silent
      (eventFrames_of_silent (w.framesTried_fileHandleError io code))⟩
    rw [fileStep, fileHandleError, if_neg (show ¬ code = errTransferState from
      of_decide_eq_false he)]
    split_ifs <;> simp

/-- The conditions of the unwinding theorem, for the receiving side. -/
theorem receiving_unwinds :
    Unwinds fileStep tableFrames World.recvHalf World.Apart FileEvent.forRecv where
  unseen w _ he := recvHalf_of_not_forRecv w he
  seen v w e hv hw hhalf := by
    obtain ⟨hvhalf, hvframes⟩ := receiving_step hv e
    obtain ⟨hwhalf, hwframes⟩ := receiving_step hw e
    rw [hvhalf, hwhalf, hvframes, hwframes, hhalf]
    exact ⟨rfl, rfl⟩

/-- **Receiving goes on undisturbed.** Two clients with the same receive tasks and files and the
    same calls for them, and never an id in both halves, end with the same receive tasks and files,
    and send the same frames about them, whatever they send and are told about it between these
    calls. -/
theorem receiving_undisturbed {v w : World} {events events' : List FileEvent}
    (hhalf : v.recvHalf = w.recvHalf)
    (hcalls : events.filter FileEvent.forRecv = events'.filter FileEvent.forRecv)
    (hv : Throughout fileStep World.Apart v events)
    (hw : Throughout fileStep World.Apart w events') :
    (fileRun v events).recvHalf = (fileRun w events').recvHalf ∧
      outputs fileStep tableFrames v events = outputs fileStep tableFrames w events' :=
  receiving_unwinds.run hhalf hcalls hv hw

/-- The file comes in as if nothing went out. -/
theorem receiving_undisturbed_each_way :
    (fileRun (World.init fun _ => none) oneByteEachWay).recvHalf =
        (fileRun (World.init fun _ => none) (oneByteEachWay.filter FileEvent.forRecv)).recvHalf ∧
      outputs fileStep tableFrames (World.init fun _ => none) oneByteEachWay =
        outputs fileStep tableFrames (World.init fun _ => none)
          (oneByteEachWay.filter FileEvent.forRecv) ∧
      wentOut (outputs fileStep tableFrames (World.init fun _ => none) oneByteEachWay) =
        [acceptFrame 7] ∧
      (fileRun (World.init fun _ => none) oneByteEachWay).disk (utf8 "downloads/b") =
        some [66] := by
  have hcalls : oneByteEachWay.filter FileEvent.forRecv =
      (oneByteEachWay.filter FileEvent.forRecv).filter FileEvent.forRecv := by simp
  obtain ⟨hhalf, hframes⟩ := receiving_undisturbed (v := World.init fun _ => none)
    (w := World.init fun _ => none) rfl hcalls (by decide +kernel) (by decide +kernel)
  exact ⟨hhalf, hframes, by decide +kernel, by decide +kernel⟩

/-- A client that sends to itself: the cancellation that ends its send task does not reach the
    receive task of the same id. -/
example :
    let events : List FileEvent :=
      [.sendfile (utf8 "/sendfile bob a") ⟨true, true, 1, true, true, by decide⟩,
        .announcement ((Announcement.waiting (utf8 "a") 1 (utf8 "bob")).text 5) Io.ok,
        .announcement ((Announcement.incoming (utf8 "bob") (utf8 "a") 1).text 5) Io.ok,
        .frame msgFileCancel (utilsWriteU32Be 5) Io.ok]
    ((fileRun (World.init fun _ => none) events).recv 0).busy = true ∧
      ((fileRun (World.init fun _ => none) (events.filter FileEvent.forRecv)).recv 0).busy =
        false := by
  decide +kernel

end TCPClient
