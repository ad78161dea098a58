import TCPClient.SentChunks

namespace TCPClient

open Octets Cover

/-!
# What one event sends

`framesTried` are the frames handed to `conn_send_all`.  The receiving side sends at most one
control frame for an event (`TriesControl`).  Which frames are the send task's is read off the
frames themselves (`sendFrames`), and `sendFrames_eq` says which calls have any.  `SendMove` lists
what an event makes the send task do together with the frames this sends; `sendMove_fileStep` says
that nothing else happens.
-/

/-- The bytes of a frame, from its type and payload. -/
def frameBytes (type : UInt8) (payload : Bytes) : Bytes :=
  frameHeader type payload.length ++ payload

/-- INIT: `target\0filename\0size_str\0`. -/
def initFrame (target filename : Bytes) (size : Nat) : Bytes :=
  frameBytes msgFileInit (target ++ [0] ++ filename ++ [0] ++ decimal size ++ [0])

/-- COMPLETE: the id. -/
def completeFrame (tid : Nat) : Bytes := frameBytes msgFileComplete (utilsWriteU32Be tid)

/-- CANCEL: the id. -/
def cancelFrame (tid : Nat) : Bytes := frameBytes msgFileCancel (utilsWriteU32Be tid)

/-- The type byte of a frame. -/
def isType (type : UInt8) (frame : Bytes × Bool) : Bool := frame.1[2]? = some type

theorem isType_frameHeader (type type' : UInt8) (len : Nat) (payload : Bytes) (ok : Bool) :
    isType type (frameHeader type' len ++ payload, ok) = decide (type' = type) := by
  simp [isType, frameHeader, utilsWriteU16Be]

theorem isType_frameBytes (type type' : UInt8) (payload : Bytes) (ok : Bool) :
    isType type (frameBytes type' payload, ok) = decide (type' = type) :=
  isType_frameHeader type type' payload.length payload ok

/-- What the hand-written builders build has the type they were asked for. -/
theorem isType_of_buildPayload {type type' : UInt8} {payload frame : Bytes} {outCap : Int}
    (h : buildPayload type' payload outCap = some frame) (ok : Bool) :
    isType type (frame, ok) = decide (type' = type) := by
  unfold buildPayload at h
  split_ifs at h
  rw [← Option.some.inj h, isType_frameHeader]

/-- The frame of a send effect, with whether all of it went out. -/
def Effect.triedFrame : Effect → Option (Bytes × Bool)
  | .send frame ok => some (frame, ok)
  | _ => none

namespace World

/-- The frames handed to `conn_send_all`, each with whether all of it went out. -/
def framesTried (w : World) : List (Bytes × Bool) := w.log.filterMap Effect.triedFrame

/-- Only a send effect hands a frame over. -/
@[simp] theorem framesTried_emit (w : World) (e : Effect) :
    (w.emit e).framesTried = w.framesTried ++ e.triedFrame.toList := by
  simp only [framesTried, emit, List.filterMap_append]
  cases h : e.triedFrame <;> simp [h]

/-- What is kept in the tasks and on the disk is not said to the server. -/
@[simp] theorem framesTried_setSend (w : World) (t : SendTask) :
    (w.setSend t).framesTried = w.framesTried := rfl

@[simp] theorem framesTried_setRecv (w : World) (i : Slot) (t : RecvTask) :
    (w.setRecv i t).framesTried = w.framesTried := rfl

@[simp] theorem framesTried_setDisk (w : World) (path : Bytes) (content : Option Bytes) :
    (w.setDisk path content).framesTried = w.framesTried := rfl

/-- Lines for the user are no frames. -/
@[simp] theorem framesTried_print (w : World) (text : Bytes) :
    (w.print text).framesTried = w.framesTried := by
  simp [print, Effect.triedFrame]

@[simp] theorem framesTried_displayIncoming (w : World) (text : Bytes) :
    (w.displayIncoming text).framesTried = w.framesTried := by
  simp [displayIncoming, Effect.triedFrame]

/-- Operations on files are no frames. -/
@[simp] theorem framesTried_fwrite (w : World) (path : Bytes) (offset : Nat) (data : Bytes) :
    (w.fwrite path offset data).framesTried = w.framesTried := by
  simp [fwrite, Effect.triedFrame]

@[simp] theorem framesTried_fopenWrite (w : World) (path : Bytes) :
    (w.fopenWrite path).framesTried = w.framesTried := by
  simp [fopenWrite, Effect.triedFrame]

@[simp] theorem framesTried_fcloseWrite (w : World) (path : Bytes) (loss : Option Bytes) :
    (w.fcloseWrite path loss).framesTried = w.framesTried := by
  cases loss <;> simp [fcloseWrite, Effect.triedFrame]

@[simp] theorem framesTried_remove (w : World) (path : Bytes) (removeOk : Bool) :
    (w.remove path removeOk).framesTried = w.framesTried := by
  cases removeOk <;> simp [remove, Effect.triedFrame]

/-- A send task goes without a word: whoever ends it has sent what there is to send. -/
@[simp] theorem framesTried_sendTaskClear (w : World) :
    w.sendTaskClear.framesTried = w.framesTried := by
  unfold sendTaskClear fcloseSend
  cases w.send.fp <;> simp [Effect.triedFrame]

/-- Memory is released without a word. -/
@[simp] theorem framesTried_freeBitmap (w : World) (t : RecvTask) :
    (w.freeBitmap t).framesTried = w.framesTried := by
  unfold freeBitmap
  cases t.bitmap <;> simp [Effect.triedFrame]

/-- Memory is asked for without a word to the server. -/
theorem AskedBitmap.framesTried {w v : World} {i : Slot} {bitmap : Option Bytes}
    (h : w.AskedBitmap i v bitmap) : v.framesTried = w.framesTried := by
  cases h <;> simp [Effect.triedFrame]

/-- A receive task is cleared without a word. -/
@[simp] theorem framesTried_recvTaskClear (w : World) (io : Io) (i : Slot) :
    (w.recvTaskClear io i).framesTried = w.framesTried := by
  unfold recvTaskClear discardFile
  cases (w.recv i).fp <;> dsimp only <;> split_ifs
  · simp
  · split <;> simp
  · simp
  · split <;> simp

/-- Progress is shown, not sent. -/
@[simp] theorem framesTried_showProgress (w : World) :
    w.showProgress.framesTried = w.framesTried := by
  unfold showProgress
  dsimp only
  split_ifs <;> simp

@[simp] theorem framesTried_tickEnd (w : World) : w.tickEnd.framesTried = w.framesTried := by
  unfold tickEnd
  split_ifs <;> rfl

/-- A frame with an id is handed over once, whether it goes out or not. -/
@[simp] theorem framesTried_sendTid (w : World) (msgType : UInt8) (tid : Nat) (sendOk : Bool) :
    (w.sendTid msgType tid sendOk).1.framesTried =
      w.framesTried ++ [(frameBytes msgType (utilsWriteU32Be tid), sendOk)] := by
  rw [sendTid_eq, framesTried_emit]
  rfl

/-! ### The receiving side -/

/-- One control frame for `tid`; `ok` says whether it goes out, and the connection is reported lost
    only when it does not. -/
def Tries (type : UInt8) (tid : Nat) (ok : Bool) (w : World) (res : World × Status) : Prop :=
  res.1.framesTried = w.framesTried ++ [(frameBytes type (utilsWriteU32Be tid), ok)] ∧
    (res.2 = .lost → ok = false)

/-- No frame and no failure, or one control frame for `tid` of one of the types. -/
def TriesControl (types : List UInt8) (tid : Nat) (ok : Bool) (w : World)
    (res : World × Status) : Prop :=
  (res.1.framesTried = w.framesTried ∧ res.2 = .ok) ∨ ∃ type ∈ types, Tries type tid ok w res

variable {w : World} {tid : Nat} {types : List UInt8} {ok : Bool}

/-- A call that hands nothing over. -/
theorem TriesControl.silent {w' : World} (h : w'.framesTried = w.framesTried) :
    TriesControl types tid ok w (w', .ok) := Or.inl ⟨h, rfl⟩

/-- The types may be more. -/
theorem TriesControl.mono {types' : List UInt8} {res : World × Status}
    (h : TriesControl types tid ok w res) (hsub : types ⊆ types') :
    TriesControl types' tid ok w res :=
  h.imp_right fun ⟨type, hmem, rest⟩ => ⟨type, hsub hmem, rest⟩

/-- The completion check says nothing to the server, whatever it finds. -/
theorem framesTried_recvTaskFinish (w : World) (io : Io) (i : Slot) :
    (w.recvTaskFinish io i).framesTried = w.framesTried := by
  unfold recvTaskFinish
  dsimp only
  split_ifs <;> simp

/-- A completion says nothing to the server. -/
theorem framesTried_recvTaskComplete (w : World) (io : Io) (tid : Nat) :
    (w.recvTaskComplete io tid).framesTried = w.framesTried := by
  unfold recvTaskComplete
  cases w.recvTaskFind tid with
  | none => rfl
  | some i =>
    dsimp only
    split_ifs
    · exact framesTried_recvTaskFinish w io i
    · simp

/-- An abort sends CANCEL for its task. -/
theorem framesTried_recvTaskAbort (w : World) (io : Io) (i : Slot) (why : Bytes) :
    (w.recvTaskAbort io i why).framesTried =
      w.framesTried ++ [(cancelFrame (w.recv i).tid, io.sendOk)] := by
  simp [recvTaskAbort, cancelFrame]

/-- A refusal sends REJECT for its task. -/
theorem framesTried_recvTaskReject (w : World) (io : Io) (i : Slot) (why : Bytes) :
    (w.recvTaskReject io i why).framesTried = w.framesTried ++
      [(frameBytes msgFileReject (utilsWriteU32Be (w.recv i).tid), io.sendOk)] := by
  simp [recvTaskReject]

/-- An offer that finds no free slot is turned down. -/
theorem recvAnnounceIncoming_tries (w : World) (io : Io) (tid : Nat) :
    TriesControl [msgFileReject] tid io.sendOk w (w.recvAnnounceIncoming io tid, .ok) := by
  unfold recvAnnounceIncoming
  cases w.recvTaskSlot with
  | none => exact Or.inr ⟨msgFileReject, by simp, by simp, by simp⟩
  | some i => exact .silent rfl

/-- The INIT fields are taken in silence. -/
theorem recvFillInit_tries (w : World) (f : InitFields) :
    (w.recvFillInit f).framesTried = w.framesTried := by
  unfold recvFillInit
  cases w.recvInitBest <;> rfl

/-- A chunk is answered only by the CANCEL of an abort. -/
theorem recvChunk_tries (w : World) (io : Io) (tid offset : Nat) (data : Bytes) :
    TriesControl [msgFileCancel] tid io.sendOk w (w.recvChunk io tid offset data, .ok) := by
  unfold recvChunk
  cases hfind : w.recvTaskFind tid with
  | none => exact .silent rfl
  | some i =>
    obtain ⟨-, htid⟩ := recvTaskFind_eq_some hfind
    -- the three ways the task is given up
    have habort : ∀ (v : World) (why : Bytes), v.framesTried = w.framesTried →
        v.tasks = w.tasks →
          TriesControl [msgFileCancel] tid io.sendOk w (v.recvTaskAbort io i why, .ok) := by
      intro v why hv ht
      refine Or.inr ⟨msgFileCancel, by simp, ?_, by simp⟩
      rw [framesTried_recvTaskAbort, hv, recv, ht, htid]
      rfl
    dsimp only
    cases (w.recv i).fp with
    | none => exact .silent rfl
    | some h =>
      dsimp only
      split_ifs
      · exact habort w _ rfl rfl
      · exact habort _ _ (by simp) (by simp)
      · exact .silent (by simp)
      · exact habort w _ rfl rfl

/-- A refusal in the middle of `/accept`, in a world that differs from the first in memory only. -/
theorem recvTaskReject_tries {io : Io} {i : Slot} (hfind : w.recvTaskFind tid = some i)
    {v : World} (hv : v.framesTried = w.framesTried) {t : RecvTask} (ht : t.tid = (w.recv i).tid)
    (why : Bytes) :
    Tries msgFileReject tid io.sendOk w ((v.setRecv i t).recvTaskReject io i why, .ok) := by
  refine ⟨?_, by simp⟩
  rw [framesTried_recvTaskReject, ← (recvTaskFind_eq_some hfind).2, ← ht]
  simp [hv]

/-- `/accept` answers a transfer that waits for the user, and nothing else: with REJECT where the
    client itself refuses it, else with ACCEPT. -/
theorem acceptTid_calls (w : World) (io : Io) (tid : Nat) :
    ((∀ i, ¬ w.AwaitsUser tid i) ∧ (w.acceptTid io tid).1.framesTried = w.framesTried ∧
        (w.acceptTid io tid).2 = .ok) ∨
      ∃ i, w.AwaitsUser tid i ∧
        (w.RefusesAccept io tid → Tries msgFileReject tid io.sendOk w (w.acceptTid io tid)) ∧
        (¬ w.RefusesAccept io tid →
          Tries msgFileAccept tid io.sendOk w (w.acceptTid io tid)) := by
  have hbranch := w.acceptTid_branch io tid
  generalize w.acceptTid io tid = res at hbranch ⊢
  cases hbranch with
  | unknown hfind =>
    refine Or.inl ⟨fun i h => ?_, by simp [noSuchTransfer], rfl⟩
    exact absurd (hfind.symm.trans h.find) (by simp)
  | early i text hfind hnot htext =>
    refine Or.inl ⟨fun j h => ?_, by simp, rfl⟩
    obtain rfl := Option.some.inj (hfind.symm.trans h.find)
    exact hnot h
  | unnamed i why h hown hwhy =>
    have hreject : Tries msgFileReject tid io.sendOk w
        ((w.setRecv i (w.recv i)).recvTaskReject io i why, .ok) :=
      recvTaskReject_tries h.find rfl rfl why
    rw [setRecv_self] at hreject
    exact Or.inr ⟨i, h, fun _ => hreject, fun hnot => absurd hown hnot⟩
  | uncreated i v t why h hown hname htid hfp hasked hwhy =>
    -- the bitmap may have been asked for by then
    exact Or.inr ⟨i, h, fun _ => recvTaskReject_tries h.find hasked.framesTried htid why,
      fun hnot => absurd hown hnot⟩
  -- the ACCEPT frame, whether or not it goes out
  | lost i saveName path h hown hname hpath hsend =>
    refine Or.inr ⟨i, h, fun hrefuses => absurd hrefuses hown, fun _ => ⟨?_, fun _ => hsend⟩⟩
    rw [hsend]
    simp only [framesTried_recvTaskClear, framesTried_emit, framesTried_setRecv,
      framesTried_fopenWrite, List.append_assoc]
    rfl
  | accepted i saveName path h hown hname hpath hsend =>
    refine Or.inr ⟨i, h, fun hrefuses => absurd hrefuses hown, fun _ => ⟨?_, by simp⟩⟩
    rw [hsend]
    simp only [framesTried_print, framesTried_emit, framesTried_setRecv, framesTried_fopenWrite,
      List.append_assoc]
    rfl

/-- `/accept` answers an offer by one frame at most. -/
theorem acceptTid_tries (w : World) (io : Io) (tid : Nat) :
    TriesControl [msgFileAccept, msgFileReject] tid io.sendOk w (w.acceptTid io tid) := by
  rcases w.acceptTid_calls io tid with ⟨-, hsilent⟩ | ⟨i, -, hrefused, haccepted⟩
  · exact Or.inl hsilent
  · by_cases hown : w.RefusesAccept io tid
    · exact Or.inr ⟨msgFileReject, by simp, hrefused hown⟩
    · exact Or.inr ⟨msgFileAccept, by simp, haccepted hown⟩

/-- `/reject` answers a transfer that has no file yet, and nothing else. -/
theorem rejectTid_calls (w : World) (io : Io) (tid : Nat) :
    ((∀ i, w.recvTaskFind tid = some i → (w.recv i).fp ≠ none) ∧
        (w.rejectTid io tid).1.framesTried = w.framesTried ∧ (w.rejectTid io tid).2 = .ok) ∨
      ∃ i, w.recvTaskFind tid = some i ∧ (w.recv i).fp = none ∧
        Tries msgFileReject tid io.sendOk w (w.rejectTid io tid) := by
  unfold rejectTid
  cases hfind : w.recvTaskFind tid with
  | none => exact Or.inl ⟨by simp, by simp [noSuchTransfer], rfl⟩
  | some i =>
    dsimp only
    cases hfp : (w.recv i).fp with
    | some fh =>
      -- a transfer under way is not turned down any more
      refine Or.inl ⟨fun j hj => ?_, by simp, rfl⟩
      obtain rfl := Option.some.inj hj
      simp [hfp]
    | none =>
      rw [if_neg (by simp), sendTid_eq]
      refine Or.inr ⟨i, rfl, hfp, ?_⟩
      cases io.sendOk with
      | false =>
        refine ⟨?_, by simp⟩
        rw [framesTried_emit]
        rfl
      | true =>
        refine ⟨?_, by simp⟩
        rw [framesTried_recvTaskClear, framesTried_print, framesTried_emit]
        rfl

/-- `/reject` answers by REJECT, or is refused itself. -/
theorem rejectTid_tries (w : World) (io : Io) (tid : Nat) :
    TriesControl [msgFileReject] tid io.sendOk w (w.rejectTid io tid) := by
  rcases w.rejectTid_calls io tid with ⟨-, hsilent⟩ | ⟨i, -, -, htried⟩
  · exact Or.inl hsilent
  · exact Or.inr ⟨msgFileReject, by simp, htried⟩

/-! ### Signals -/

/-- An acceptance is not answered. -/
theorem framesTried_accepted (w : World) (tid : Nat) :
    (w.accepted tid).framesTried = w.framesTried := by
  unfold accepted
  split_ifs <;> rfl

/-- A refusal is not answered. -/
theorem framesTried_rejected (w : World) (tid : Nat) :
    (w.rejected tid).framesTried = w.framesTried := by
  unfold rejected
  split_ifs
  · simp
  · rfl

/-- A cancellation by the peer is not answered. -/
theorem framesTried_cancelled (w : World) (io : Io) (tid : Nat) :
    (w.cancelled io tid).framesTried = w.framesTried := by
  unfold cancelled
  split_ifs
  · simp
  · cases w.recvTaskFind tid with
    | none => rfl
    | some i => simp

/-- Of all announcements only an offer is ever answered. -/
theorem announced_tries (w : World) (io : Io) (kind : FileAnnKind) (tid : Nat) :
    TriesControl [msgFileReject] tid io.sendOk w (w.announced io kind tid, .ok) := by
  cases kind with
  | sendPending =>
    refine .silent ?_
    rw [announced]
    split_ifs <;> rfl
  | accepted => exact .silent (framesTried_accepted w tid)
  | rejected => exact .silent (framesTried_rejected w tid)
  | cancelled => exact .silent (framesTried_cancelled w io tid)
  | cancelledDisc => exact .silent (framesTried_cancelled w io tid)
  | complete =>
    refine .silent ?_
    rw [announced]
    split_ifs
    · simp
    · exact framesTried_recvTaskComplete w io tid
  | recvPending => exact recvAnnounceIncoming_tries w io tid

/-- Control frames are not answered. -/
theorem framesTried_controlFrame (w : World) (io : Io) (type : UInt8) (tid : Nat) :
    (w.controlFrame io type tid).framesTried = w.framesTried := by
  unfold controlFrame
  split_ifs
  · exact framesTried_accepted w tid
  · exact framesTried_rejected w tid
  · exact framesTried_cancelled w io tid
  · exact framesTried_recvTaskComplete w io tid
  · rfl

/-- Errors clear tasks, and say nothing. -/
theorem framesTried_fileHandleError (w : World) (io : Io) (code : Nat) :
    (w.fileHandleError io code).framesTried = w.framesTried := by
  unfold fileHandleError
  split_ifs
  · simp
  · rfl
  · simp only
    split <;> simp
  · simp only
    split <;> simp
  · rfl

/-- `file_reset_all` works for a connection that may be gone. -/
theorem framesTried_fileResetAll (w : World) (io : Slot → Io) :
    (w.fileResetAll io).framesTried = w.framesTried := by
  -- over any slots, from any world
  have hloop : ∀ (l : List Slot) (v : World),
      (l.foldl (resetRecv io) v).framesTried = v.framesTried := by
    intro l
    induction l with
    | nil => intro v; rfl
    | cons i l ih =>
      intro v
      rw [List.foldl_cons, ih, resetRecv]
      split_ifs
      · simp
      · rfl
  rw [fileResetAll, hloop]
  split_ifs
  · simp
  · rfl

/-! ### `/cancel` -/

/-- The transfer is one of the client's own, or one of the task table. -/
def KnowsTid (w : World) (tid : Nat) : Prop :=
  w.sendTaskMatches tid = true ∨ (w.recvTaskFind tid).isSome = true

/-- `/cancel` ends a transfer that there is, and nothing else. -/
theorem cancelTid_calls (w : World) (io : Io) (tid : Nat) :
    (¬ w.KnowsTid tid ∧ (w.cancelTid io tid).1.framesTried = w.framesTried ∧
        (w.cancelTid io tid).2 = .ok) ∨
      w.KnowsTid tid ∧ Tries msgFileCancel tid io.sendOk w (w.cancelTid io tid) := by
  have hsent : (w.emit (.send (tidFrame msgFileCancel tid).encode io.sendOk)).framesTried =
      w.framesTried ++ [(frameBytes msgFileCancel (utilsWriteU32Be tid), io.sendOk)] := by
    rw [framesTried_emit]
    rfl
  unfold cancelTid KnowsTid
  rw [sendTid_eq]
  generalize w.emit (.send (tidFrame msgFileCancel tid).encode io.sendOk) = w1 at hsent ⊢
  split_ifs with hown
  · -- the send task goes first, even where a receive task has the same id
    refine Or.inr ⟨Or.inl hown, ?_⟩
    cases hok : io.sendOk with
    | false =>
      rw [hok] at hsent
      exact ⟨hsent, by simp⟩
    | true =>
      refine ⟨?_, by simp⟩
      rw [framesTried_print, framesTried_sendTaskClear, hsent, hok]
  · cases w.recvTaskFind tid with
    | none => exact Or.inl ⟨by simp [hown], by simp [noSuchTransfer], rfl⟩
    | some i =>
      refine Or.inr ⟨Or.inr rfl, ?_⟩
      cases hok : io.sendOk with
      | false =>
        rw [hok] at hsent
        exact ⟨hsent, by simp⟩
      | true =>
        refine ⟨?_, by simp⟩
        rw [framesTried_print, framesTried_recvTaskClear, hsent, hok]

/-- `/cancel` sends its frame for whichever task has the id. -/
theorem cancelTid_tries (w : World) (io : Io) (tid : Nat) :
    TriesControl [msgFileCancel] tid io.sendOk w (w.cancelTid io tid) := by
  rcases w.cancelTid_calls io tid with ⟨-, hsilent⟩ | ⟨-, htried⟩
  · exact Or.inl hsilent
  · exact Or.inr ⟨msgFileCancel, by simp, htried⟩

/-! ### The types of the frames -/

/-- Only frames of these types are tried on the way. -/
def TriesOnly (types : List UInt8) (w w' : World) : Prop :=
  ∃ frames, w'.framesTried = w.framesTried ++ frames ∧
    ∀ f ∈ frames, ∃ type ∈ types, isType type f = true

/-- Where nothing is handed over, any types will do. -/
theorem TriesOnly.silent {w' : World} (h : w'.framesTried = w.framesTried) :
    TriesOnly types w w' := ⟨[], by rw [h, List.append_nil], by simp⟩

/-- One call after the other. -/
theorem TriesOnly.trans {w' w'' : World} (h : TriesOnly types w w')
    (h' : TriesOnly types w' w'') : TriesOnly types w w'' := by
  obtain ⟨frames, hlog, htypes⟩ := h
  obtain ⟨frames', hlog', htypes'⟩ := h'
  refine ⟨frames ++ frames', by rw [hlog', hlog, List.append_assoc], fun f hf => ?_⟩
  exact (List.mem_append.mp hf).elim (htypes f) (htypes' f)

/-- One frame, whether or not it goes out. -/
theorem TriesOnly.single (type : UInt8) {frame : Bytes} {ok : Bool} (hmem : type ∈ types)
    (htype : isType type (frame, ok) = true) :
    TriesOnly types w (w.emit (.send frame ok)) := by
  refine ⟨[(frame, ok)], framesTried_emit w _, fun f hf => ⟨type, hmem, ?_⟩⟩
  rwa [List.mem_singleton.mp hf]

/-- One control frame at most is a case of it. -/
theorem TriesControl.only {res : World × Status} (h : TriesControl types tid ok w res) :
    TriesOnly types w res.1 := by
  rcases h with ⟨hsilent, -⟩ | ⟨type, hmem, hframes, -⟩
  · exact .silent hsilent
  · refine ⟨_, hframes, fun f hf => ⟨type, hmem, ?_⟩⟩
    rw [List.mem_singleton.mp hf, isType_frameBytes, decide_eq_true rfl]

/-- `/sendfile` tries an INIT frame at most. -/
theorem fileCmdSendfile_only (w : World) (io : SendfileIo) (line : Bytes) :
    TriesOnly [msgFileInit] w (w.fileCmdSendfile io line).1 := by
  refine w.fileCmdSendfile_cases io line (P := fun res => TriesOnly [msgFileInit] w res.1)
    (fun _ _ text _ => .silent (framesTried_print w text))
    (fun _ _ _ _ _ => .silent (by simp [Effect.triedFrame])) fun target filename _ => ?_
  have hread : (w.emit (.fopenRead filename)).framesTried = w.framesTried := by
    simp [Effect.triedFrame]
  unfold sendInit
  dsimp only
  cases hframe : protocolBuildText3 msgFileInit target filename (decimal io.fsize.toNat)
      (protoHeaderSize + maxUsernameLen + maxFilenameLen + 32) with
  | none => exact .silent (by rw [framesTried_sendTaskClear, framesTried_setSend, hread])
  | some frame =>
    -- the frame is tried, and then the task is cleared or a line shown
    have hsent (t : SendTask) (ok : Bool) : TriesOnly [msgFileInit] w
        (((w.emit (.fopenRead filename)).setSend t).emit (.send frame ok)) := by
      refine (TriesOnly.silent ?_).trans (.single msgFileInit (by simp) ?_)
      · rw [framesTried_setSend, hread]
      · rw [isType_of_buildPayload hframe, decide_eq_true rfl]
    dsimp only [connSendAll]
    cases io.sendOk with
    | false => exact (hsent _ false).trans (.silent (framesTried_sendTaskClear _))
    | true => exact (hsent _ true).trans (.silent (framesTried_print _ _))

/-- The frames of a tick. -/
def tickTypes : List UInt8 := [msgFileChunk, msgFileComplete, msgFileCancel]

/-- A round of the loop sends a CHUNK, or the CANCEL of a file that got shorter. -/
theorem tickChunk_only (w : World) (io : TickIo) (i : Nat) :
    TriesOnly tickTypes w (w.tickChunk io i).1 := by
  unfold tickChunk
  cases fileChunkPlan w.send.size fileChunkDataMax (w.send.sent / fileChunkDataMax) with
  | none => exact .silent (by simp)
  | some plan =>
    obtain ⟨offset, len⟩ := plan
    dsimp only
    generalize (io.fread _ len).take len = data
    by_cases hread : data.length ≠ len
    · rw [if_pos hread]
      refine ⟨[(cancelFrame w.send.tid, io.sendOk i)], by simp [cancelFrame], fun f hf => ?_⟩
      refine ⟨msgFileCancel, by simp [tickTypes], ?_⟩
      rw [List.mem_singleton.mp hf, cancelFrame, isType_frameBytes, decide_eq_true rfl]
    rw [if_neg hread]
    cases hframe : protocolBuildChunk w.send.tid offset data
        (protoHeaderSize + 12 + fileChunkDataMax) with
    | none => exact .silent (by simp)
    | some frame =>
      have hsent (ok : Bool) : TriesOnly tickTypes w (w.emit (.send frame ok)) := by
        refine .single msgFileChunk (by simp [tickTypes]) ?_
        rw [isType_of_buildPayload hframe, decide_eq_true rfl]
      dsimp only [connSendAll]
      cases io.sendOk i with
      | false => exact (hsent false).trans (.silent (by simp))
      | true => exact (hsent true).trans (.silent (by simp))

/-- A tick tries chunks, COMPLETE, or the CANCEL that gives the file up. -/
theorem fileSendTick_only (w : World) (io : TickIo) :
    TriesOnly tickTypes w (w.fileSendTick io).1 := by
  have hloop (fuel i : Nat) (v : World) : TriesOnly tickTypes v (tickLoop io fuel i v).1 := by
    induction fuel generalizing i v with
    | zero => exact .silent (by simp [tickLoop])
    | succ fuel ih =>
      rw [tickLoop]
      split_ifs
      · have hchunk := v.tickChunk_only io i
        generalize v.tickChunk io i = res at hchunk ⊢
        obtain ⟨v1, early⟩ := res
        cases early with
        | none => exact hchunk.trans (ih (i + 1) v1)
        | some status => exact hchunk
      · exact .silent (by simp)
  unfold fileSendTick
  by_cases hbusy : w.send.busy = true
  swap
  · rw [if_pos hbusy]
    exact .silent rfl
  rw [if_neg (not_not_intro hbusy)]
  by_cases hidle : w.send.state ≠ .active ∧ w.send.state ≠ .done
  · rw [if_pos hidle]
    exact .silent rfl
  rw [if_neg hidle]
  by_cases hdone : w.send.state = .done
  · rw [if_pos hdone, sendTid_eq]
    have hsent (ok : Bool) : TriesOnly tickTypes w
        (w.emit (.send (tidFrame msgFileComplete w.send.tid).encode ok)) := by
      refine .single msgFileComplete (by simp [tickTypes]) ?_
      exact (isType_frameBytes _ _ _ _).trans (decide_eq_true rfl)
    cases io.sendOk 0 with
    | false => exact hsent false
    | true => exact (hsent true).trans (.silent (by simp))
  · rw [if_neg hdone]
    exact hloop fileChunksPerRound 0 w

end World

/-! ### The send task -/

/-- What a command or a tick reports to the event loop. -/
def fileStatus (w : World) : FileEvent → Status
  | .sendfile line io => (w.fileCmdSendfile io line).2
  | .accept line io => (w.fileCmdAccept io line).2
  | .reject line io => (w.fileCmdReject io line).2
  | .cancel line io => (w.fileCmdCancel io line).2
  | .tick io => (w.fileSendTick io).2
  | _ => .ok

/-- The frames a call handed to `conn_send_all`. -/
def eventFrames (w : World) (e : FileEvent) : List (Bytes × Bool) :=
  (fileStep w e).framesTried.drop w.framesTried.length

/-- What an event sent, once it is known what the log got. -/
theorem eventFrames_eq {w : World} {e : FileEvent} {fs : List (Bytes × Bool)}
    (h : (fileStep w e).framesTried = w.framesTried ++ fs) : eventFrames w e = fs := by
  rw [eventFrames, h, List.drop_left]

/-- The transfer that comes in and is cancelled by a call, if one is: that of a chunk, or of a
    `/cancel` whose id is not the send task's. -/
def FileEvent.cancelsIncoming (w : World) : FileEvent → Option Nat
  | .frame type payload _ =>
    (if type = msgFileChunk ∧ 12 ≤ payload.length then some (utilsReadU32Be payload)
      else none).filter fun tid => (w.recvTaskFind tid).isSome
  | .cancel line _ =>
    (commandsParseTidArg (line.drop 7)).filter fun tid =>
      !w.sendTaskMatches tid && (w.recvTaskFind tid).isSome
  | _ => none

/-- The frame is the send task's: INIT, CHUNK and COMPLETE are sent for no other task, and so is
    CANCEL unless it has the id of a transfer that comes in and is cancelled by the call. -/
def OfSendTask (w : World) (e : FileEvent) (frame : Bytes × Bool) : Bool :=
  isType msgFileInit frame || isType msgFileChunk frame || isType msgFileComplete frame ||
    isType msgFileCancel frame &&
      (e.cancelsIncoming w).all fun tid => decide (frame.1 ≠ cancelFrame tid)

/-- The frames of a call that are the send task's, out of all it handed to `conn_send_all`. -/
def sendFrames (w : World) (e : FileEvent) : List (Bytes × Bool) :=
  (eventFrames w e).filter (OfSendTask w e)

/-- The calls that may send for the send task. -/
def FileEvent.sendsForTask (w : World) : FileEvent → Bool
  | .sendfile _ _ | .tick _ => true
  | .cancel line _ => (commandsParseTidArg (line.drop 7)).any fun tid => w.sendTaskMatches tid
  | _ => false

section OfSendTask

variable {w : World} {e : FileEvent} {types : List UInt8}

/-- A frame is sorted by its type, and a CANCEL by its id. -/
theorem ofSendTask_of_type {type : UInt8} {f : Bytes × Bool} (h : isType type f = true) :
    OfSendTask w e f = (decide (type = msgFileInit) || decide (type = msgFileChunk) ||
      decide (type = msgFileComplete) || decide (type = msgFileCancel) &&
        (e.cancelsIncoming w).all fun tid => decide (f.1 ≠ cancelFrame tid)) := by
  have hbyte : f.1[2]? = some type := of_decide_eq_true h
  have hsame (type' : UInt8) : isType type' f = decide (type = type') := by
    rw [isType, hbyte]
    exact decide_eq_decide.mpr (by rw [Option.some.injEq])
  rw [OfSendTask, hsame, hsame, hsame, hsame]

/-- All frames of a call are the send task's if their types say so. -/
theorem sendFrames_of_all (h : World.TriesOnly types w (fileStep w e))
    (hall : ∀ type ∈ types, ∀ f, isType type f = true → OfSendTask w e f = true) :
    sendFrames w e = eventFrames w e := by
  obtain ⟨frames, hlog, htypes⟩ := h
  rw [sendFrames, eventFrames_eq hlog]
  refine List.filter_eq_self.mpr fun f hf => ?_
  obtain ⟨type, hmem, htype⟩ := htypes f hf
  exact hall type hmem f htype

/-- None of them is the send task's if the types say that. -/
theorem sendFrames_of_none (h : World.TriesOnly types w (fileStep w e))
    (hnone : ∀ type ∈ types, ∀ f, isType type f = true → OfSendTask w e f = false) :
    sendFrames w e = [] := by
  obtain ⟨frames, hlog, htypes⟩ := h
  rw [sendFrames, eventFrames_eq hlog]
  refine List.filter_eq_nil_iff.mpr fun f hf => ?_
  obtain ⟨type, hmem, htype⟩ := htypes f hf
  simp [hnone type hmem f htype]

/-- A call that hands nothing over sends nothing for the send task. -/
theorem sendFrames_of_silent (h : (fileStep w e).framesTried = w.framesTried) :
    sendFrames w e = [] := by
  have hnone : World.TriesOnly [] w (fileStep w e) := .silent h
  exact sendFrames_of_none hnone (by simp)

/-- ACCEPT and REJECT are not the send task's. -/
theorem sendFrames_of_answer (h : World.TriesOnly [msgFileAccept, msgFileReject] w (fileStep w e)) :
    sendFrames w e = [] := by
  refine sendFrames_of_none h fun type hmem f htype => ?_
  rw [ofSendTask_of_type htype]
  rcases List.mem_pair.mp hmem with rfl | rfl <;> simp +decide

/-- The CANCEL of a transfer that comes in is not the send task's. -/
theorem sendFrames_of_incoming {tid : Nat} {ok : Bool} {status : Status}
    (h : World.TriesControl [msgFileCancel] tid ok w (fileStep w e, status))
    (hcancels : e.cancelsIncoming w = some tid) : sendFrames w e = [] := by
  rcases h with ⟨hsilent, -⟩ | ⟨type, hmem, hframes, -⟩
  · exact sendFrames_of_silent hsilent
  · obtain rfl := List.mem_singleton.mp hmem
    have htype : isType msgFileCancel (frameBytes msgFileCancel (utilsWriteU32Be tid), ok) = true :=
      (isType_frameBytes _ _ _ _).trans (decide_eq_true rfl)
    rw [sendFrames, eventFrames_eq hframes, List.filter_singleton, ofSendTask_of_type htype,
      hcancels]
    simp +decide [cancelFrame]

end OfSendTask

/-- Announcements: a REJECT where there is no room, and nothing else. -/
theorem sendFrames_announcement (w : World) (text : Bytes) (io : Io) :
    sendFrames w (.announcement text io) = [] := by
  cases hparse : fileParseAnnouncement text with
  | none =>
    exact sendFrames_of_silent (by simp [fileStep, World.fileHandleAnnouncement, hparse])
  | some res =>
    obtain ⟨kind, tid⟩ := res
    have hstep : fileStep w (.announcement text io) = w.announced io kind tid := by
      rw [fileStep, World.fileHandleAnnouncement, hparse]
    refine sendFrames_of_answer ?_
    rw [hstep]
    exact ((w.announced_tries io kind tid).mono (by simp)).only

/-- Frames: a CANCEL where a chunk is refused, and nothing else. -/
theorem sendFrames_frame (w : World) (type : UInt8) (payload : Bytes) (io : Io) :
    sendFrames w (.frame type payload io) = [] := by
  -- a control frame, INIT, a chunk with its header, or nothing the module knows
  by_cases h4 : payload.length = 4
  · refine sendFrames_of_silent ?_
    rw [fileStep, World.fileFrame_control w io type h4, World.framesTried_controlFrame]
  by_cases hinit : type = msgFileInit
  · subst hinit
    refine sendFrames_of_silent ?_
    rw [fileStep, World.fileFrame_init w io h4]
    cases initFields payload with
    | none => rfl
    | some f => exact World.recvFillInit_tries w f
  by_cases hchunk : type = msgFileChunk ∧ 12 ≤ payload.length
  · obtain ⟨rfl, h12⟩ := hchunk
    have htries := w.recvChunk_tries io (utilsReadU32Be payload)
      (utilsReadU64Be (payload.drop 4)) (payload.drop 12)
    rw [← World.fileFrame_chunk w io h12] at htries
    cases hfind : w.recvTaskFind (utilsReadU32Be payload) with
    | none =>
      refine sendFrames_of_silent ?_
      rw [fileStep, World.fileFrame_chunk w io h12, World.recvChunk, hfind]
    | some i =>
      -- a CANCEL that answers a chunk is about the transfer that comes in
      exact sendFrames_of_incoming htries (by simp [FileEvent.cancelsIncoming, h12, hfind])
  · refine sendFrames_of_silent ?_
    rw [fileStep, World.fileFrame_other w io h4 hinit fun h => by
      by_contra hlen
      exact hchunk ⟨h, by omega⟩]

/-- A `/cancel` without an id sends nothing. -/
theorem sendFrames_cancel_none (w : World) {line : Bytes} (io : Io)
    (harg : commandsParseTidArg (line.drop 7) = none) : sendFrames w (.cancel line io) = [] :=
  sendFrames_of_silent (by simp [fileStep, World.fileCmdCancel, harg])

/-- `/cancel` sends for the task whose id it names. -/
theorem sendFrames_cancel (w : World) {line : Bytes} (io : Io) {tid : Nat}
    (harg : commandsParseTidArg (line.drop 7) = some tid) :
    sendFrames w (.cancel line io) =
      if w.sendTaskMatches tid then eventFrames w (.cancel line io) else [] := by
  have hstep : fileStep w (.cancel line io) = (w.cancelTid io tid).1 := by
    rw [fileStep, World.fileCmdCancel, harg]
  have htries : World.TriesControl [msgFileCancel] tid io.sendOk w
      (fileStep w (.cancel line io), (w.cancelTid io tid).2) := by
    rw [hstep]
    exact w.cancelTid_tries io tid
  split_ifs with hm
  · refine sendFrames_of_all htries.only fun type hmem f htype => ?_
    rw [ofSendTask_of_type htype]
    simp [List.mem_singleton.mp hmem, FileEvent.cancelsIncoming, harg, hm]
  · cases hfind : w.recvTaskFind tid with
    | none =>
      -- nobody has the id
      refine sendFrames_of_silent ?_
      rw [hstep, World.cancelTid, if_neg hm, hfind]
      simp [World.noSuchTransfer]
    | some i =>
      exact sendFrames_of_incoming htries (by simp [FileEvent.cancelsIncoming, harg, hm, hfind])

/-- **Which calls send for the send task**: `/sendfile` and the ticks, and a `/cancel` that finds
    it; the others try no frame that is the send task's. -/
theorem sendFrames_eq (w : World) (e : FileEvent) :
    sendFrames w e = if e.sendsForTask w then eventFrames w e else [] := by
  cases e with
  | sendfile line io =>
    refine sendFrames_of_all (w.fileCmdSendfile_only io line) fun type hmem f htype => ?_
    rw [ofSendTask_of_type htype]
    simp [List.mem_singleton.mp hmem]
  | tick io =>
    -- the CANCEL of a tick is about the file that is sent
    refine sendFrames_of_all (w.fileSendTick_only io) fun type hmem f htype => ?_
    rw [ofSendTask_of_type htype]
    simp only [World.tickTypes, List.mem_cons, List.not_mem_nil, or_false] at hmem
    rcases hmem with rfl | rfl | rfl <;> simp [FileEvent.cancelsIncoming]
  | cancel line io =>
    cases harg : commandsParseTidArg (line.drop 7) with
    | none => rw [sendFrames_cancel_none w io harg]; simp [FileEvent.sendsForTask, harg]
    | some tid => rw [sendFrames_cancel w io harg]; simp [FileEvent.sendsForTask, harg]
  | accept line io =>
    refine sendFrames_of_answer ?_
    rw [fileStep, World.fileCmdAccept]
    cases commandsParseTidArg (line.drop 7) with
    | none => exact .silent (by simp)
    | some tid => exact (w.acceptTid_tries io tid).only
  | reject line io =>
    refine sendFrames_of_answer ?_
    rw [fileStep, World.fileCmdReject]
    cases commandsParseTidArg (line.drop 7) with
    | none => exact .silent (by simp)
    | some tid => exact ((w.rejectTid_tries io tid).mono (by simp)).only
  | announcement text io => exact sendFrames_announcement w text io
  | frame type payload io => exact sendFrames_frame w type payload io
  | error code io => exact sendFrames_of_silent (w.framesTried_fileHandleError io code)
  | reset io => exact sendFrames_of_silent (w.framesTried_fileResetAll io)

/-- The frames of a call that may send for the send task are all its. -/
theorem sendFrames_of_sends {w : World} {e : FileEvent} (h : e.sendsForTask w = true) :
    sendFrames w e = eventFrames w e := by
  rw [sendFrames_eq, if_pos h]

/-- None of those of any other call is the send task's. -/
theorem sendFrames_of_not_sends {w : World} {e : FileEvent} (h : e.sendsForTask w = false) :
    sendFrames w e = [] := by
  rw [sendFrames_eq, if_neg (by simp [h])]

/-- The events by which the outside speaks: announcements, frames, error frames, and reset. -/
def FileEvent.Signal : FileEvent → Prop
  | .announcement _ _ | .frame _ _ _ | .error _ _ | .reset _ => True
  | _ => False

/-- The length of the next chunk. -/
def SendTask.nextLen (t : SendTask) : Nat := min fileChunkDataMax (t.size - t.sent)

/-- What the file gives for the next chunk. -/
def SendTask.nextData (t : SendTask) (io : TickIo) : Bytes :=
  (io.fread t.sent t.nextLen).take t.nextLen

/-- The next chunk. -/
def SendTask.nextChunk (t : SendTask) (io : TickIo) : Bytes :=
  chunkFrame t.tid (t.sent, t.nextData io)

/-- The end of a tick: `DONE` when nothing is left to send. -/
def SendTask.ended (t : SendTask) : SendTask :=
  if t.sent ≥ t.size then { t with state := .done } else t

/-- The loop of `file_send_tick` on the task: the rounds left, the task before and after, the
    frames, what the tick reports. -/
inductive TickChunks (io : TickIo) :
    Nat → SendTask → SendTask → List (Bytes × Bool) → Status → Prop where
  | stop (fuel : Nat) (t : SendTask) (h : fuel = 0 ∨ t.size ≤ t.sent) :
      TickChunks io fuel t t.ended [] .ok
  | sent {fuel : Nat} {t t' : SendTask} {fs : List (Bytes × Bool)} {st : Status} (mark : Nat)
      (hmore : t.sent < t.size) (hread : (t.nextData io).length = t.nextLen)
      (hrest : TickChunks io fuel { t.advanced t.nextLen with nextProgressMark := mark } t' fs st) :
      TickChunks io (fuel + 1) t t' ((t.nextChunk io, true) :: fs) st
  | lost (fuel : Nat) (t : SendTask) (hmore : t.sent < t.size)
      (hread : (t.nextData io).length = t.nextLen) :
      TickChunks io (fuel + 1) t SendTask.zero [(t.nextChunk io, false)] .lost
  | short (fuel : Nat) (t : SendTask) (hmore : t.sent < t.size)
      (hread : (t.nextData io).length ≠ t.nextLen) (ok : Bool) :
      TickChunks io (fuel + 1) t SendTask.zero [(cancelFrame t.tid, ok)] .ok

/-- What an event makes of the send task, the frames it sends for it, and what it reports. -/
inductive SendMove (t : SendTask) :
    FileEvent → SendTask → List (Bytes × Bool) → Status → Prop where
  | keep (e : FileEvent) (st : Status) : SendMove t e t [] st
  | signal (e : FileEvent) (t' : SendTask) (he : e.Signal) (hs : SendStep t e t') :
      SendMove t e t' [] .ok
  | submit (line : Bytes) (io : SendfileIo) (target filename : Bytes)
      (hparse : commandsParseSendfile line maxUsernameLen maxFilenameLen = some (target, filename))
      (hfree : t.busy = false) (hsize : 0 < io.fsize) :
      SendMove t (.sendfile line io)
        (if io.sendOk then SendTask.submitted target filename io.fsize.toNat else SendTask.zero)
        [(initFrame target filename io.fsize.toNat, io.sendOk)] (if io.sendOk then .ok else .lost)
  | cancel (line : Bytes) (io : Io) (haddr : commandsParseTidArg (line.drop 7) = some t.tid)
      (hbusy : t.busy = true) :
      SendMove t (.cancel line io) (if io.sendOk then SendTask.zero else t)
        [(cancelFrame t.tid, io.sendOk)] (if io.sendOk then .ok else .lost)
  | complete (io : TickIo) (hbusy : t.busy = true) (hdone : t.state = .done) :
      SendMove t (.tick io) (if io.sendOk 0 then { t with state := .waitComplete } else t)
        [(completeFrame t.tid, io.sendOk 0)] (if io.sendOk 0 then .ok else .lost)
  | chunks (io : TickIo) (t' : SendTask) (fs : List (Bytes × Bool)) (st : Status)
      (hbusy : t.busy = true) (hactive : t.state = .active)
      (h : TickChunks io fileChunksPerRound t t' fs st) : SendMove t (.tick io) t' fs st

end TCPClient
