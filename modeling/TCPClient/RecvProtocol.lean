import TCPClient.SendProtocol
import TCPClient.Lib.Trace

namespace TCPClient

open Octets Trace

/-!
# The receiving side of the protocol

The frames about one transfer that go out of the receiving side, from its offer on, in any run.
`RecvSend` is the protocol: ACCEPT, REJECT and CANCEL by the user's commands while the transfer is
pending, CANCEL by the user or for a bad chunk once it is accepted, and nothing behind a REJECT or
a CANCEL.  `RecvMove` is what one event does to a task, `recvTask_conforms` the result for runs.
-/

/-! ### The protocol -/

/-- ACCEPT: the id. -/
def acceptFrame (tid : Nat) : Bytes := frameBytes msgFileAccept (utilsWriteU32Be tid)

/-- REJECT: the id. -/
def rejectFrame (tid : Nat) : Bytes := frameBytes msgFileReject (utilsWriteU32Be tid)

/-- Where a transfer stands for the receiver. -/
inductive RecvStage where
  | pending
  | active
  | ended
  deriving DecidableEq, Repr

/-- The frames that may go out about a transfer, each with the call that sends it. -/
inductive RecvSend (tid : Nat) : RecvStage → FileEvent × Bytes → RecvStage → Prop where
  | accept (line : Bytes) (io : Io) (harg : commandsParseTidArg (line.drop 7) = some tid) :
      RecvSend tid .pending (.accept line io, acceptFrame tid) .active
  | refuse (line : Bytes) (io : Io) (harg : commandsParseTidArg (line.drop 7) = some tid) :
      RecvSend tid .pending (.accept line io, rejectFrame tid) .ended
  | reject (line : Bytes) (io : Io) (harg : commandsParseTidArg (line.drop 7) = some tid) :
      RecvSend tid .pending (.reject line io, rejectFrame tid) .ended
  | cancel (stage : RecvStage) (line : Bytes) (io : Io) (halive : stage ≠ .ended)
      (harg : commandsParseTidArg (line.drop 7) = some tid) :
      RecvSend tid stage (.cancel line io, cancelFrame tid) .ended
  | abort (payload : Bytes) (io : Io) (h12 : 12 ≤ payload.length)
      (htid : utilsReadU32Be payload = tid) :
      RecvSend tid .active (.frame msgFileChunk payload io, cancelFrame tid) .ended

/-- A task is active once its file is open. -/
def RecvTask.stage (t : RecvTask) : RecvStage := if t.fp.isSome then .active else .pending

/-- A task that is in the table has not ended. -/
theorem RecvTask.stage_ne_ended (t : RecvTask) : t.stage ≠ .ended := by
  unfold RecvTask.stage
  split_ifs <;> simp

/-- The frames of a call that are about the transfer in a slot: the call names its id, and they are
    not those of the send task. -/
def recvFrames (w : World) (e : FileEvent) (i : Slot) : List (Bytes × Bool) :=
  if e.addressee.bind w.recvTaskFind = some i ∧ sendFrames w e = [] then eventFrames w e else []

/-- The frames about the transfer in a slot that go out, with the call that sends them. -/
def recvSends (w : World) (e : FileEvent) (i : Slot) : List (FileEvent × Bytes) :=
  (wentOut (recvFrames w e i)).map fun frame => (e, frame)

/-- A transfer is offered, and gets the slot. -/
def Offers (w : World) (e : FileEvent) (i : Slot) : Prop :=
  (w.recv i).busy = false ∧ ((fileStep w e).recv i).busy = true

instance (w : World) (e : FileEvent) (i : Slot) : Decidable (Offers w e i) :=
  inferInstanceAs (Decidable (_ ∧ _))

/-- What has gone out about the transfer that got the slot last. -/
def sentSince (i : Slot) :
    World → List (FileEvent × Bytes) → List FileEvent → List (FileEvent × Bytes)
  | _, sent, [] => sent
  | w, sent, e :: events =>
    sentSince i (fileStep w e) (if Offers w e i then [] else sent ++ recvSends w e i) events

/-! ### One event -/

/-- What an event does to a task, and what it sends about it. -/
def RecvMove (t t' : RecvTask) (sent : List (FileEvent × Bytes)) : Prop :=
  ∃ stage, Run (RecvSend t.tid) t.stage sent stage ∧
    (t'.busy = true → t'.tid = t.tid ∧ stage = t'.stage)

variable {t t' : RecvTask}

/-- An event may leave the task as it is. -/
theorem RecvMove.keep (t : RecvTask) : RecvMove t t [] := ⟨t.stage, .nil _, fun _ => ⟨rfl, rfl⟩⟩

/-- It may change fields that the protocol does not look at. -/
theorem RecvMove.silent {u : RecvTask} (htid : u.tid = t.tid) (hfp : u.fp.isSome = t.fp.isSome) :
    RecvMove t u [] := by
  refine ⟨t.stage, .nil _, fun _ => ⟨htid, ?_⟩⟩
  rw [RecvTask.stage, RecvTask.stage, hfp]

/-- It may clear the task without a frame. -/
theorem RecvMove.cleared (t : RecvTask) : RecvMove t RecvTask.zero [] :=
  ⟨t.stage, .nil _, fun hbusy => absurd hbusy (by simp [RecvTask.zero])⟩

/-- A last frame, whether or not it goes out. -/
theorem RecvMove.last {e : FileEvent} {frame : Bytes}
    (h : RecvSend t.tid t.stage (e, frame) .ended) (ok : Bool) :
    RecvMove t RecvTask.zero ((wentOut [(frame, ok)]).map fun f => (e, f)) := by
  cases ok with
  | false => exact .cleared t
  | true => exact ⟨.ended, .single h, fun hbusy => absurd hbusy (by simp [RecvTask.zero])⟩

section Events

variable {w : World} {i : Slot}

/-- The frames of a call that is addressed to the task of a slot are that task's, if none is the
    send task's. -/
theorem recvSends_of_frames {e : FileEvent} {fs : List (Bytes × Bool)}
    (hfind : e.addressee.bind w.recvTaskFind = some i) (hsend : sendFrames w e = [])
    (hframes : (fileStep w e).framesTried = w.framesTried ++ fs) :
    recvSends w e i = (wentOut fs).map fun f => (e, f) := by
  rw [recvSends, recvFrames, if_pos ⟨hfind, hsend⟩, eventFrames_eq hframes]

/-- A call without frames sends none for a slot. -/
theorem recvSends_of_silent {e : FileEvent} (hframes : (fileStep w e).framesTried = w.framesTried) :
    recvSends w e i = [] := by
  have hnone : eventFrames w e = [] := eventFrames_eq (by rw [hframes, List.append_nil])
  rw [recvSends, recvFrames, hnone]
  split_ifs <;> rfl

/-- Neither does a call that is addressed to somebody else. -/
theorem recvSends_of_other {e : FileEvent} (h : e.addressee.bind w.recvTaskFind ≠ some i) :
    recvSends w e i = [] := by
  rw [recvSends, recvFrames, if_neg fun hc => h hc.1]
  rfl

/-- An event without an addressee sends nothing about a transfer, and keeps its task or clears
    it. -/
theorem recvMove_of_unaddressed {e : FileEvent} (haddr : e.addressee = none)
    (hbusy : (w.recv i).busy = true) :
    RecvMove (w.recv i) ((fileStep w e).recv i) (recvSends w e i) := by
  rw [recvSends_of_other (by simp [haddr])]
  have hs := (fileStep_spec w e).table
  generalize (fileStep w e).recvSeq = seq' at hs
  generalize (fileStep w e).recv = r' at hs ⊢
  cases hs with
  | keep => exact .keep _
  | clear _ j _ _ =>
    by_cases hji : i = j
    · subst hji
      simpa using RecvMove.cleared (w.recv i)
    · simpa [hji] using RecvMove.keep (w.recv i)
  | reset io _ hr =>
    rw [hr i, if_pos hbusy]
    exact .cleared _
  | announce _ _ tid j _ hfree =>
    have hji : i ≠ j := fun h => absurd (h ▸ hbusy) (by simp [hfree])
    simpa [hji] using RecvMove.keep (w.recv i)
  | fill _ _ f j _ _ _ _ =>
    by_cases hji : i = j
    · subst hji
      simpa using RecvMove.silent (t := w.recv i) (u := (w.recv i).filled f) rfl rfl
    · simpa [hji] using RecvMove.keep (w.recv i)
  | opened _ j _ _ haddr' => exact absurd (haddr.symm.trans haddr') (by simp)
  | written _ j _ _ _ haddr' => exact absurd (haddr.symm.trans haddr') (by simp)

/-! ### Signals -/

/-- Clearing one slot is a move of every slot. -/
theorem recvMove_clear {w' : World} {j : Slot}
    (hrecv : w'.tasks.recv = Function.update w.recv j RecvTask.zero) (i : Slot) :
    RecvMove (w.recv i) (w'.recv i) [] := by
  rw [World.recv, World.recv, hrecv]
  by_cases hji : i = j
  · subst hji
    simpa using RecvMove.cleared (w.recv i)
  · simpa [hji] using RecvMove.keep (w.recv i)

/-- A cancellation from the peer clears its task. -/
theorem recvMove_cancelled (w : World) (io : Io) (tid : Nat) (i : Slot) :
    RecvMove (w.recv i) ((w.cancelled io tid).recv i) [] := by
  unfold World.cancelled
  split_ifs
  · simpa [World.recv] using RecvMove.keep (w.recv i)
  · cases w.recvTaskFind tid with
    | none => exact .keep _
    | some j => exact recvMove_clear (j := j) (by simp [World.recv]) i

/-- An acceptance is for the send task: no receive task moves. -/
theorem recvMove_accepted (w : World) (tid : Nat) (i : Slot) :
    RecvMove (w.recv i) ((w.accepted tid).recv i) [] := by
  unfold World.accepted
  split_ifs <;> exact .keep _

/-- A rejection is for the send task as well. -/
theorem recvMove_rejected (w : World) (tid : Nat) (i : Slot) :
    RecvMove (w.recv i) ((w.rejected tid).recv i) [] := by
  unfold World.rejected
  split_ifs
  · simpa [World.recv] using RecvMove.keep (w.recv i)
  · exact .keep _

/-- A completion ends its task, with or without its file. -/
theorem recvMove_recvTaskComplete (w : World) (io : Io) (tid : Nat) (i : Slot) :
    RecvMove (w.recv i) ((w.recvTaskComplete io tid).recv i) [] := by
  unfold World.recvTaskComplete
  cases w.recvTaskFind tid with
  | none => exact .keep _
  | some j =>
    dsimp only
    split_ifs
    · exact recvMove_clear (by rw [World.tasks_recvTaskFinish]) i
    · exact recvMove_clear (j := j) (by simp [World.recv]) i

/-- A complete announcement is not answered. -/
theorem framesTried_complete (w : World) (io : Io) (tid : Nat) :
    (w.announced io .complete tid).framesTried = w.framesTried := by
  rw [World.announced]
  split_ifs
  · simp
  · exact World.framesTried_recvTaskComplete w io tid

/-- Every announcement but the offer of a file sends nothing. -/
theorem framesTried_announced (w : World) (io : Io) (tid : Nat) {kind : FileAnnKind}
    (hkind : kind ≠ .recvPending) : (w.announced io kind tid).framesTried = w.framesTried := by
  cases kind with
  | sendPending =>
    rw [World.announced]
    split_ifs <;> rfl
  | accepted => exact World.framesTried_accepted w tid
  | rejected => exact World.framesTried_rejected w tid
  | cancelled => exact World.framesTried_cancelled w io tid
  | cancelledDisc => exact World.framesTried_cancelled w io tid
  | complete => exact framesTried_complete w io tid
  | recvPending => exact absurd rfl hkind

/-- A signal that names a known transfer sends nothing. -/
theorem recvMove_announcement {text : Bytes} {io : Io} {tid : Nat}
    (haddr : (FileEvent.announcement text io).addressee = some tid) :
    RecvMove (w.recv i) ((w.fileHandleAnnouncement io text).recv i)
      (recvSends w (.announcement text io) i) := by
  rw [FileEvent.addressee] at haddr
  cases hparse : fileParseAnnouncement text with
  | none =>
    rw [hparse] at haddr
    exact absurd haddr (by simp)
  | some res =>
    obtain ⟨kind, tid'⟩ := res
    rw [hparse] at haddr
    dsimp only at haddr
    split_ifs at haddr with hkind
    have hstep : w.fileHandleAnnouncement io text = w.announced io kind tid' := by
      rw [World.fileHandleAnnouncement, hparse]
    have hframes : (w.announced io kind tid').framesTried = w.framesTried :=
      framesTried_announced w io tid' fun hoffer => hkind (Or.inr hoffer)
    rw [recvSends_of_silent (by rw [fileStep, hstep, hframes]), hstep]
    cases kind with
    | sendPending => exact absurd (Or.inl rfl) hkind
    | recvPending => exact absurd (Or.inr rfl) hkind
    | accepted => exact recvMove_accepted w tid' i
    | rejected => exact recvMove_rejected w tid' i
    | cancelled => exact recvMove_cancelled w io tid' i
    | cancelledDisc => exact recvMove_cancelled w io tid' i
    | complete =>
      rw [World.announced]
      split_ifs
      · simpa [World.recv] using RecvMove.keep (w.recv i)
      · exact recvMove_recvTaskComplete w io tid' i

/-- Control frames, by their type. -/
theorem recvMove_controlFrame (w : World) (io : Io) (type : UInt8) (tid : Nat) (i : Slot) :
    RecvMove (w.recv i) ((w.controlFrame io type tid).recv i) [] := by
  unfold World.controlFrame
  split_ifs
  · exact recvMove_accepted w tid i
  · exact recvMove_rejected w tid i
  · exact recvMove_cancelled w io tid i
  · exact recvMove_recvTaskComplete w io tid i
  · exact .keep _

/-! ### Calls that name a transfer -/

/-- A call that moves the task it finds. -/
theorem recvMove_found {e : FileEvent} {tid : Nat} {j : Slot} {u : RecvTask}
    {l : List (Bytes × Bool)}
    (haddr : e.addressee = some tid) (hfind : w.recvTaskFind tid = some j)
    (hsend : sendFrames w e = [])
    (hframes : (fileStep w e).framesTried = w.framesTried ++ l)
    (hrecv : (fileStep w e).tasks.recv = Function.update w.tasks.recv j u)
    (hmove : RecvMove (w.recv j) u ((wentOut l).map fun f => (e, f))) (i : Slot) :
    RecvMove (w.recv i) ((fileStep w e).recv i) (recvSends w e i) := by
  have hfound : e.addressee.bind w.recvTaskFind = some j := by
    rw [haddr]
    exact hfind
  rw [World.recv, World.recv, hrecv]
  by_cases hji : i = j
  · subst hji
    rw [recvSends_of_frames hfound hsend hframes]
    simpa using hmove
  · rw [recvSends_of_other fun h => hji (Option.some.inj (h.symm.trans hfound))]
    simpa [hji] using RecvMove.keep (w.recv i)

/-- A call that sends nothing and leaves the table alone. -/
theorem recvMove_same {e : FileEvent} (hframes : (fileStep w e).framesTried = w.framesTried)
    (hrecv : (fileStep w e).tasks.recv = w.tasks.recv) (i : Slot) :
    RecvMove (w.recv i) ((fileStep w e).recv i) (recvSends w e i) := by
  rw [recvSends_of_silent hframes, World.recv, World.recv, hrecv]
  exact .keep _

/-- Without a file the task is pending. -/
theorem stage_of_none (hfp : t.fp = none) : t.stage = .pending := by
  rw [RecvTask.stage, hfp]
  rfl

/-- With a file it is active. -/
theorem stage_of_some {fh : FileHandle} (hfp : t.fp = some fh) : t.stage = .active := by
  rw [RecvTask.stage, hfp]
  rfl

/-- A chunk is written, or the transfer is given up with a CANCEL. -/
theorem recvMove_chunk {payload : Bytes} (io : Io) (h12 : 12 ≤ payload.length) (i : Slot) :
    RecvMove (w.recv i) ((fileStep w (.frame msgFileChunk payload io)).recv i)
      (recvSends w (.frame msgFileChunk payload io) i) := by
  have haddr : (FileEvent.frame msgFileChunk payload io).addressee =
      some (utilsReadU32Be payload) := by
    rw [FileEvent.addressee, if_neg (by omega), if_pos ⟨rfl, h12⟩]
  have hstep : fileStep w (.frame msgFileChunk payload io) = w.recvChunk io (utilsReadU32Be payload)
      (utilsReadU64Be (payload.drop 4)) (payload.drop 12) := w.fileFrame_chunk io h12
  generalize utilsReadU64Be (payload.drop 4) = offset at hstep
  generalize payload.drop 12 = data at hstep
  rw [World.recvChunk] at hstep
  cases hfind : w.recvTaskFind (utilsReadU32Be payload) with
  | none =>
    rw [hfind] at hstep
    exact recvMove_same (by rw [hstep]) (by rw [hstep]) i
  | some j =>
    obtain ⟨-, htid⟩ := World.recvTaskFind_eq_some hfind
    rw [hfind] at hstep
    dsimp only at hstep
    cases hfp : (w.recv j).fp with
    | none =>
      rw [hfp] at hstep
      exact recvMove_same (by rw [hstep]) (by rw [hstep]) i
    | some fh =>
      rw [hfp] at hstep
      dsimp only at hstep
      have habort : RecvSend (w.recv j).tid (w.recv j).stage
          (.frame msgFileChunk payload io, cancelFrame (w.recv j).tid) .ended := by
        rw [stage_of_some hfp, htid]
        exact .abort payload io h12 rfl
      have hgiven {v : World} {why : Bytes} (hv : v.tasks = w.tasks)
          (hframes : v.framesTried = w.framesTried)
          (hstep : fileStep w (.frame msgFileChunk payload io) = v.recvTaskAbort io j why) :
          RecvMove (w.recv i) ((fileStep w (.frame msgFileChunk payload io)).recv i)
            (recvSends w (.frame msgFileChunk payload io) i) := by
        refine recvMove_found haddr hfind (sendFrames_of_not_sends rfl) ?_ ?_
          (.last habort io.sendOk) i
        · rw [hstep, World.framesTried_recvTaskAbort, hframes, World.recv, hv]
        · rw [hstep, World.tasks_recvTaskAbort, World.recv, hv]
      split_ifs at hstep
      · exact hgiven rfl rfl hstep
      · exact hgiven (v := w.fwrite fh.path offset (io.fwritten data)) rfl (by simp) hstep
      · refine recvMove_found haddr hfind (sendFrames_of_not_sends rfl) (l := [])
          (u := (w.recv j).written fh offset data.length) ?_ (by rw [hstep]; rfl)
          (.silent rfl (by rw [hfp]; rfl)) i
        rw [hstep]
        simp
      · exact hgiven rfl rfl hstep

/-! ### Commands -/

/-- **`/accept`**: ACCEPT for a task that gets its file, REJECT for one that is given up. -/
theorem recvMove_acceptTid {line : Bytes} {io : Io} {tid : Nat}
    (harg : commandsParseTidArg (line.drop 7) = some tid) (i : Slot) :
    RecvMove (w.recv i) ((fileStep w (.accept line io)).recv i)
      (recvSends w (.accept line io) i) := by
  have haddr : (FileEvent.accept line io).addressee = some tid := harg
  have hstep : fileStep w (.accept line io) = (w.acceptTid io tid).1 := by
    rw [fileStep, World.fileCmdAccept, harg]
  have hbranch := w.acceptTid_branch io tid
  generalize w.acceptTid io tid = res at hbranch hstep
  -- the client refuses the transfer itself
  have hrefused {j : Slot} {v : World} {why : Bytes} (h : w.AwaitsUser tid j)
      (hrecv : v.tasks.recv = Function.update w.tasks.recv j (v.recv j))
      (hframes : v.framesTried = w.framesTried) (htid : (v.recv j).tid = (w.recv j).tid)
      (hres : res.1 = v.recvTaskReject io j why) :
      RecvMove (w.recv i) ((fileStep w (.accept line io)).recv i)
        (recvSends w (.accept line io) i) := by
    have hfound := (World.recvTaskFind_eq_some h.find).2
    have hsend : RecvSend (w.recv j).tid (w.recv j).stage
        (.accept line io, rejectFrame (w.recv j).tid) .ended := by
      rw [stage_of_none h.idle, hfound]
      exact .refuse line io harg
    refine recvMove_found haddr h.find (sendFrames_of_not_sends rfl) ?_ ?_ (.last hsend io.sendOk) i
    · rw [hstep, hres, World.framesTried_recvTaskReject, hframes, htid]
      rfl
    · rw [hstep, hres, World.tasks_recvTaskReject, World.recv, hrecv]
      simp
  cases hbranch with
  | unknown hfind =>
    exact recvMove_same (by simp [hstep, World.noSuchTransfer]) (by rw [hstep]; rfl) i
  | early j text hfind hnot htext => exact recvMove_same (by simp [hstep]) (by rw [hstep]; rfl) i
  | unnamed j why h hown hwhy =>
    exact hrefused (v := w) h (by simp [World.recv]) rfl rfl rfl
  | uncreated j v t why h hown hname htid hfp hasked hwhy =>
    exact hrefused (v := v.setRecv j t) h (by simp [World.recv, hasked.quiet.1])
      (by simp [hasked.framesTried]) (by simpa [World.recv] using htid) rfl
  | lost j saveName path h hown hname hpath =>
    refine recvMove_found haddr h.find (sendFrames_of_not_sends rfl)
      (l := [(acceptFrame tid, false)]) ?_ ?_ (.cleared (w.recv j)) i
    · rw [hstep]
      simp only [World.framesTried_recvTaskClear, World.framesTried_emit,
        World.framesTried_setRecv, World.framesTried_fopenWrite, List.append_assoc]
      rfl
    · rw [hstep]
      simp [World.recv, World.fopenWrite]
  | accepted j saveName path h hown hname hpath =>
    have hfound := (World.recvTaskFind_eq_some h.find).2
    refine recvMove_found haddr h.find (sendFrames_of_not_sends rfl)
      (l := [(acceptFrame tid, true)]) (u := (w.recv j).opened saveName path) ?_ ?_
      ⟨.active, ?_, fun _ => ⟨rfl, rfl⟩⟩ i
    · rw [hstep]
      simp only [World.framesTried_print, World.framesTried_emit, World.framesTried_setRecv,
        World.framesTried_fopenWrite, List.append_assoc]
      rfl
    · rw [hstep]
      rfl
    · rw [stage_of_none h.idle, hfound]
      exact .single (.accept line io harg)

/-- **`/reject`**: REJECT, and the task is cleared once the frame is out. -/
theorem recvMove_rejectTid {line : Bytes} {io : Io} {tid : Nat}
    (harg : commandsParseTidArg (line.drop 7) = some tid) (i : Slot) :
    RecvMove (w.recv i) ((fileStep w (.reject line io)).recv i)
      (recvSends w (.reject line io) i) := by
  have haddr : (FileEvent.reject line io).addressee = some tid := harg
  have hstep : fileStep w (.reject line io) = (w.rejectTid io tid).1 := by
    rw [fileStep, World.fileCmdReject, harg]
  rw [World.rejectTid] at hstep
  cases hfind : w.recvTaskFind tid with
  | none =>
    rw [hfind] at hstep
    exact recvMove_same (by simp [hstep, World.noSuchTransfer]) (by rw [hstep]; rfl) i
  | some j =>
    obtain ⟨-, htid⟩ := World.recvTaskFind_eq_some hfind
    rw [hfind] at hstep
    dsimp only at hstep
    split_ifs at hstep with hopen
    · exact recvMove_same (by simp [hstep]) (by rw [hstep]; rfl) i
    · have hfp : (w.recv j).fp = none := by simpa using hopen
      have hsend : RecvSend (w.recv j).tid (w.recv j).stage
          (.reject line io, rejectFrame (w.recv j).tid) .ended := by
        rw [stage_of_none hfp, htid]
        exact .reject line io harg
      rw [World.sendTid_eq] at hstep
      cases hok : io.sendOk with
      | false =>
        rw [hok] at hstep
        refine recvMove_found haddr hfind (sendFrames_of_not_sends rfl)
          (l := [(rejectFrame tid, false)]) (u := w.recv j) ?_ ?_ (.keep _) i
        · rw [hstep, World.framesTried_emit]
          rfl
        · rw [hstep]
          exact (Function.update_eq_self _ _).symm
      | true =>
        rw [hok] at hstep
        refine recvMove_found haddr hfind (sendFrames_of_not_sends rfl)
          (l := [(rejectFrame (w.recv j).tid, true)]) ?_ ?_ (.last hsend true) i
        · rw [hstep, World.framesTried_recvTaskClear, World.framesTried_print,
            World.framesTried_emit, htid]
          rfl
        · rw [hstep]
          simp

/-- **`/cancel`**: CANCEL, unless the id is the send task's. -/
theorem recvMove_cancelTid {line : Bytes} {io : Io} {tid : Nat}
    (harg : commandsParseTidArg (line.drop 7) = some tid) (i : Slot) :
    RecvMove (w.recv i) ((fileStep w (.cancel line io)).recv i)
      (recvSends w (.cancel line io) i) := by
  have haddr : (FileEvent.cancel line io).addressee = some tid := harg
  have hstep : fileStep w (.cancel line io) = (w.cancelTid io tid).1 := by
    rw [fileStep, World.fileCmdCancel, harg]
  by_cases hmatch : w.sendTaskMatches tid = true
  · -- the frame is the send task's
    obtain ⟨-, hframes⟩ := World.cancelTid_move harg hmatch io
    have hnone : recvSends w (.cancel line io) i = [] := by
      have hsend : sendFrames w (.cancel line io) = [(cancelFrame tid, io.sendOk)] := by
        rw [sendFrames_cancel w io harg, if_pos hmatch]
        exact eventFrames_eq (by rw [hstep]; exact hframes)
      rw [recvSends, recvFrames, if_neg (by rw [hsend]; simp)]
      rfl
    rw [hnone, hstep, World.cancelTid, if_pos hmatch, World.sendTid_eq]
    cases io.sendOk with
    | false => exact .keep _
    | true => simpa [World.recv] using RecvMove.keep (w.recv i)
  have hsendNone : sendFrames w (.cancel line io) = [] := by
    rw [sendFrames_cancel w io harg, if_neg hmatch]
  rw [World.cancelTid, if_neg hmatch] at hstep
  cases hfind : w.recvTaskFind tid with
  | none =>
    rw [hfind] at hstep
    exact recvMove_same (by simp [hstep, World.noSuchTransfer]) (by rw [hstep]; rfl) i
  | some j =>
    obtain ⟨-, htid⟩ := World.recvTaskFind_eq_some hfind
    have hsend : RecvSend (w.recv j).tid (w.recv j).stage
        (.cancel line io, cancelFrame (w.recv j).tid) .ended := by
      rw [htid]
      exact .cancel _ line io (w.recv j).stage_ne_ended harg
    rw [hfind, World.sendTid_eq] at hstep
    dsimp only at hstep
    cases hok : io.sendOk with
    | false =>
      rw [hok] at hstep
      refine recvMove_found haddr hfind hsendNone (l := [(cancelFrame tid, false)])
        (u := w.recv j) ?_ ?_ (.keep _) i
      · rw [hstep, World.framesTried_emit]
        rfl
      · rw [hstep]
        exact (Function.update_eq_self _ _).symm
    | true =>
      rw [hok] at hstep
      refine recvMove_found haddr hfind hsendNone (l := [(cancelFrame (w.recv j).tid, true)]) ?_ ?_
        (.last hsend true) i
      · rw [hstep, World.framesTried_print, World.framesTried_recvTaskClear,
          World.framesTried_emit, htid]
        rfl
      · rw [hstep]
        simp

/-- **Step lemma.** Every event keeps the task in a slot to the protocol. -/
theorem recvMove_fileStep (e : FileEvent) (hbusy : (w.recv i).busy = true) :
    RecvMove (w.recv i) ((fileStep w e).recv i) (recvSends w e i) := by
  cases haddr : e.addressee with
  | none => exact recvMove_of_unaddressed haddr hbusy
  | some tid =>
    cases e with
    | accept line io => exact recvMove_acceptTid haddr i
    | reject line io => exact recvMove_rejectTid haddr i
    | cancel line io => exact recvMove_cancelTid haddr i
    | announcement text io => exact recvMove_announcement haddr
    | frame type payload io =>
      rw [FileEvent.addressee] at haddr
      by_cases h4 : payload.length = 4
      · have hstep : fileStep w (.frame type payload io) =
            w.controlFrame io type (utilsReadU32Be payload) := w.fileFrame_control io type h4
        rw [recvSends_of_silent (by rw [hstep, World.framesTried_controlFrame]), hstep]
        exact recvMove_controlFrame w io type _ i
      · rw [if_neg h4] at haddr
        split_ifs at haddr with hchunk
        obtain ⟨rfl, h12⟩ := hchunk
        exact recvMove_chunk io h12 i
    | sendfile => exact absurd haddr (by simp [FileEvent.addressee])
    | error => exact absurd haddr (by simp [FileEvent.addressee])
    | tick => exact absurd haddr (by simp [FileEvent.addressee])
    | reset => exact absurd haddr (by simp [FileEvent.addressee])

/-- A transfer that gets a slot is pending. -/
theorem Offers.stage {e : FileEvent} (h : Offers w e i) :
    ((fileStep w e).recv i).stage = .pending := by
  obtain ⟨hfree, hbusy⟩ := h
  have hs := (fileStep_spec w e).table
  generalize (fileStep w e).recvSeq = seq' at hs
  generalize (fileStep w e).recv = r' at hs hbusy ⊢
  have hcoherent {j : Slot} {t : RecvTask} (hj : (w.recv j).busy = true)
      (hnew : (Function.update w.recv j t i).busy = true) : False := by
    have hji : i ≠ j := fun hij => absurd (hij ▸ hj) (by simp [hfree])
    simp [hji, hfree] at hnew
  cases hs with
  | keep => exact absurd hbusy (by simp [hfree])
  | clear _ j hj _ => exact (hcoherent hj hbusy).elim
  | reset io _ hr =>
    rw [hr i, hfree] at hbusy
    exact absurd hbusy (by simp [hfree])
  | announce _ _ tid j _ _ =>
    by_cases hji : i = j
    · subst hji
      simp [RecvTask.stage, RecvTask.announced, RecvTask.zero]
    · simp [hji, hfree] at hbusy
  | fill _ _ f j _ _ hwaits _ => exact (hcoherent hwaits.1 hbusy).elim
  | opened _ j _ _ _ hj => exact (hcoherent hj hbusy).elim
  | written _ j _ _ _ _ hj => exact (hcoherent hj hbusy).elim

/-- A free slot sends nothing. -/
theorem recvSends_of_idle {e : FileEvent} (hidle : (w.recv i).busy = false) :
    recvSends w e i = [] := by
  refine recvSends_of_other fun h => ?_
  obtain ⟨tid, -, hfind⟩ := Option.bind_eq_some_iff.mp h
  exact absurd (World.recvTaskFind_eq_some hfind).1 (by simp [hidle])

end Events

/-! ### Runs -/

/-- The frames are those of one transfer, and while its task is there they tell where it stands. -/
def RecvConforms (t : RecvTask) (sent : List (FileEvent × Bytes)) : Prop :=
  ∃ tid stage, Run (RecvSend tid) .pending sent stage ∧
    (t.busy = true → tid = t.tid ∧ stage = t.stage)

/-- **Step lemma** for what has gone out since the offer. -/
theorem RecvConforms.step {w : World} {i : Slot} {sent : List (FileEvent × Bytes)}
    (h : RecvConforms (w.recv i) sent) (e : FileEvent) :
    RecvConforms ((fileStep w e).recv i)
      (if Offers w e i then [] else sent ++ recvSends w e i) := by
  by_cases hoffer : Offers w e i
  · rw [if_pos hoffer]
    exact ⟨_, .pending, .nil _, fun _ => ⟨rfl, hoffer.stage.symm⟩⟩
  rw [if_neg hoffer]
  obtain ⟨tid, stage, hrun, hnow⟩ := h
  cases hbusy : (w.recv i).busy with
  | false =>
    rw [recvSends_of_idle hbusy, List.append_nil]
    exact ⟨tid, stage, hrun, fun hnew => absurd ⟨hbusy, hnew⟩ hoffer⟩
  | true =>
    obtain ⟨rfl, rfl⟩ := hnow hbusy
    obtain ⟨stage', hmove, hnext⟩ := recvMove_fileStep e hbusy
    exact ⟨_, stage', hrun.append hmove, fun hnew => ⟨(hnext hnew).1.symm, (hnext hnew).2⟩⟩

/-- **Run lemma.** -/
theorem RecvConforms.run {w : World} {i : Slot} {sent : List (FileEvent × Bytes)}
    (h : RecvConforms (w.recv i) sent) (events : List FileEvent) :
    RecvConforms ((fileRun w events).recv i) (sentSince i w sent events) := by
  induction events generalizing w sent with
  | nil => exact h
  | cons e events ih => exact ih (h.step e)

/-- The frames of a call are the send task's, or about the transfer in one slot, or refuse an offer
    for which there is no room. -/
def Owned (w : World) (e : FileEvent) : Prop :=
  eventFrames w e = sendFrames w e ∨ (∃ i, eventFrames w e = recvFrames w e i) ∨
    ∃ text io tid, e = .announcement text io ∧
      fileParseAnnouncement text = some (.recvPending, tid) ∧ w.recvTaskSlot = none ∧
      eventFrames w e = [(rejectFrame tid, io.sendOk)]

/-- The frames of a call that sends none are attributed. -/
theorem owned_of_silent {w : World} {e : FileEvent} (hsend : sendFrames w e = [])
    (hframes : (fileStep w e).framesTried = w.framesTried) : Owned w e := by
  refine Or.inl ?_
  rw [hsend]
  exact eventFrames_eq (by rw [hframes, List.append_nil])

/-- The frames of a call that finds a receive task are that task's. -/
theorem owned_of_found {w : World} {e : FileEvent} {i : Slot} (hsend : sendFrames w e = [])
    (hfind : e.addressee.bind w.recvTaskFind = some i) : Owned w e := by
  refine Or.inr (Or.inl ⟨i, ?_⟩)
  rw [recvFrames, if_pos ⟨hfind, hsend⟩]

/-- A command with a good argument: it finds a task, or says that there is none. -/
theorem owned_command {w : World} {e : FileEvent} {tid : Nat} (hsend : sendFrames w e = [])
    (haddr : e.addressee = some tid)
    (hunknown : w.recvTaskFind tid = none → fileStep w e = w.noSuchTransfer tid) : Owned w e := by
  cases hfind : w.recvTaskFind tid with
  | none =>
    refine owned_of_silent hsend ?_
    rw [hunknown hfind, World.noSuchTransfer, World.framesTried_print]
  | some i => exact owned_of_found hsend (by rw [haddr]; exact hfind)

/-- **No frame belongs to nobody.** -/
theorem owned_fileStep (w : World) (e : FileEvent) : Owned w e := by
  cases e with
  | sendfile line io => exact Or.inl (sendFrames_of_sends rfl).symm
  | tick io => exact Or.inl (sendFrames_of_sends rfl).symm
  | accept line io =>
    cases harg : commandsParseTidArg (line.drop 7) with
    | none =>
      exact owned_of_silent (sendFrames_of_not_sends rfl)
        (by simp [fileStep, World.fileCmdAccept, harg])
    | some tid =>
      refine owned_command (sendFrames_of_not_sends rfl) harg fun hfind => ?_
      simp [fileStep, World.fileCmdAccept, harg, World.acceptTid, hfind]
  | reject line io =>
    cases harg : commandsParseTidArg (line.drop 7) with
    | none =>
      exact owned_of_silent (sendFrames_of_not_sends rfl)
        (by simp [fileStep, World.fileCmdReject, harg])
    | some tid =>
      refine owned_command (sendFrames_of_not_sends rfl) harg fun hfind => ?_
      simp [fileStep, World.fileCmdReject, harg, World.rejectTid, hfind]
  | cancel line io =>
    cases harg : commandsParseTidArg (line.drop 7) with
    | none =>
      exact owned_of_silent (sendFrames_cancel_none w io harg)
        (by simp [fileStep, World.fileCmdCancel, harg])
    | some tid =>
      by_cases hmatch : w.sendTaskMatches tid = true
      · refine Or.inl ?_
        rw [sendFrames_cancel w io harg, if_pos hmatch]
      · refine owned_command (by rw [sendFrames_cancel w io harg, if_neg hmatch]) harg
          fun hfind => ?_
        simp [fileStep, World.fileCmdCancel, harg, World.cancelTid, hmatch, hfind]
  | announcement text io =>
    cases hparse : fileParseAnnouncement text with
    | none =>
      exact owned_of_silent (sendFrames_of_not_sends rfl)
        (by simp [fileStep, World.fileHandleAnnouncement, hparse])
    | some res =>
      obtain ⟨kind, tid⟩ := res
      have hstep : fileStep w (.announcement text io) = w.announced io kind tid := by
        rw [fileStep, World.fileHandleAnnouncement, hparse]
      by_cases hkind : kind = .recvPending
      swap
      · exact owned_of_silent (sendFrames_of_not_sends rfl)
          (by rw [hstep, framesTried_announced w io tid hkind])
      subst hkind
      cases hslot : w.recvTaskSlot with
      | none =>
        refine Or.inr (Or.inr ⟨text, io, tid, rfl, hparse, hslot, eventFrames_eq ?_⟩)
        rw [hstep, World.announced, World.recvAnnounceIncoming, hslot]
        simp [rejectFrame]
      | some i =>
        refine owned_of_silent (sendFrames_of_not_sends rfl) ?_
        rw [hstep, World.announced, World.recvAnnounceIncoming, hslot]
        rfl
  | frame type payload io =>
    by_cases h4 : payload.length = 4
    · refine owned_of_silent (sendFrames_of_not_sends rfl) ?_
      rw [fileStep, World.fileFrame_control w io type h4, World.framesTried_controlFrame]
    by_cases hinit : type = msgFileInit
    · subst hinit
      refine owned_of_silent (sendFrames_of_not_sends rfl) ?_
      rw [fileStep, World.fileFrame_init w io h4]
      cases initFields payload with
      | none => rfl
      | some f => exact World.recvFillInit_tries w f
    by_cases hchunk : type = msgFileChunk ∧ 12 ≤ payload.length
    · obtain ⟨rfl, h12⟩ := hchunk
      have haddr : (FileEvent.frame msgFileChunk payload io).addressee =
          some (utilsReadU32Be payload) := by
        rw [FileEvent.addressee, if_neg h4, if_pos ⟨rfl, h12⟩]
      cases hfind : w.recvTaskFind (utilsReadU32Be payload) with
      | none =>
        refine owned_of_silent (sendFrames_of_not_sends rfl) ?_
        rw [fileStep, World.fileFrame_chunk w io h12, World.recvChunk, hfind]
      | some i => exact owned_of_found (sendFrames_of_not_sends rfl) (by rw [haddr]; exact hfind)
    · refine owned_of_silent (sendFrames_of_not_sends rfl) ?_
      rw [fileStep, World.fileFrame_other w io h4 hinit fun h => by
        by_contra hlen
        exact hchunk ⟨h, by omega⟩]
  | error code io =>
    exact owned_of_silent (sendFrames_of_not_sends rfl) (w.framesTried_fileHandleError io code)
  | reset io =>
    exact owned_of_silent (sendFrames_of_not_sends rfl) (w.framesTried_fileResetAll io)

/-- **Receive protocol conformance.** In every run: what has gone out about the transfer in a slot
    since its offer is a run of the protocol, under one id, and while the task is there it has that
    id and the run ends where the task stands; and no frame of the module belongs to nobody. -/
theorem recvTask_conforms (disk : Bytes → Option Bytes) (events : List FileEvent) :
    (∀ i, RecvConforms ((fileRun (World.init disk) events).recv i)
      (sentSince i (World.init disk) [] events)) ∧
    ∀ e, Owned (fileRun (World.init disk) events) e := by
  refine ⟨fun i => RecvConforms.run ?_ events, owned_fileStep _⟩
  exact ⟨0, .pending, .nil _, fun hbusy => absurd hbusy (by simp [World.init, World.recv,
    RecvTask.zero])⟩

/-- An offer that is accepted, and given up at a chunk beyond its end. -/
example :
    (sentSince 0 (World.init fun _ => none) []
      [.announcement ((Announcement.incoming (utf8 "al") (utf8 "b") 1).text 7) Io.ok,
        .frame msgFileInit (utf8 "al" ++ [0] ++ utf8 "b" ++ [0] ++ utf8 "1" ++ [0]) Io.ok,
        .accept (utf8 "/accept 7") Io.ok,
        .frame msgFileChunk (chunkPayload 7 (1, [65])) Io.ok]).map Prod.snd =
      [acceptFrame 7, cancelFrame 7] := by
  decide +kernel

end TCPClient
