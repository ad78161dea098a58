import TCPClient.FrameSpec

namespace TCPClient

open Octets Cover

/-!
# The send task in every reachable state

`SendOk` ties the state of the send task to its counter and to the cursor of its file.  The step
specification `sendMove_fileStep` needs it, since a chunk is planned from the counter and read at
the cursor, and every event keeps it (`SendOk.move`).
-/

/-- Without a task everything is zero.  A task has its file open with the cursor behind the bytes
    sent; nothing is sent before it is accepted, whole chunks while it is active, and everything
    once it is done. -/
structure SendOk (t : SendTask) : Prop where
  idle : t.busy = false → t = SendTask.zero
  file : t.busy = true → t.fp = some ⟨t.filename, t.sent⟩
  size : t.busy = true → 0 < t.size ∧ t.size < 2 ^ 63
  started : t.busy = true → t.state ≠ .none
  unsent : t.state = .pendingTid ∨ t.state = .pending → t.sent = 0
  active : t.state = .active → t.sent < t.size ∧ fileChunkDataMax ∣ t.sent
  done : t.state = .done ∨ t.state = .waitComplete → t.sent = t.size

theorem SendOk.zero : SendOk SendTask.zero where
  idle _ := rfl
  file h := absurd h (by simp [SendTask.zero])
  size h := absurd h (by simp [SendTask.zero])
  started h := absurd h (by simp [SendTask.zero])
  unsent _ := rfl
  active h := absurd h (by simp [SendTask.zero])
  done _ := rfl

/-- What the rounds of a tick find: the cursor stands behind the bytes sent, which are whole
    chunks unless they are all. -/
structure AtChunk (t : SendTask) : Prop where
  file : ∃ path, t.fp = some ⟨path, t.sent⟩
  size : t.size < 2 ^ 63
  chunks : t.sent < t.size → fileChunkDataMax ∣ t.sent

theorem SendOk.atChunk {t : SendTask} (h : SendOk t) (hbusy : t.busy = true)
    (hactive : t.state = .active) : AtChunk t :=
  ⟨⟨_, h.file hbusy⟩, (h.size hbusy).2, fun _ => (h.active hactive).2⟩

/-- Behind a chunk the next one starts, or the file is at its end. -/
theorem AtChunk.advanced {t : SendTask} (h : AtChunk t) (mark : Nat) :
    AtChunk { t.advanced t.nextLen with nextProgressMark := mark } := by
  obtain ⟨path, hfp⟩ := h.file
  refine ⟨⟨path, ?_⟩, h.size, fun hmore => ?_⟩
  · simp [SendTask.advanced, hfp]
  · have hmore' : t.sent + t.nextLen < t.size := hmore
    have hfull : t.nextLen = fileChunkDataMax := by
      unfold SendTask.nextLen at hmore' ⊢
      omega
    show fileChunkDataMax ∣ t.sent + t.nextLen
    rw [hfull]
    exact Nat.dvd_add (h.chunks (by omega)) (dvd_refl _)

namespace World

/-! ### A tick -/

/-- One round of the loop: the next chunk is planned, read at the cursor, and sent. -/
theorem tickChunk_next {w : World} (h : AtChunk w.send) (hmore : w.send.sent < w.send.size)
    (io : TickIo) (i : Nat) :
    w.tickChunk io i =
      if (w.send.nextData io).length ≠ w.send.nextLen then
        (((w.print (utf8 "读取文件失败，已取消传输。")).sendTid msgFileCancel w.send.tid
          (io.sendOk i)).1.sendTaskClear, some .ok)
      else if io.sendOk i then
        (((w.emit (.send (w.send.nextChunk io) true)).setSend
          (w.send.advanced w.send.nextLen)).showProgress, none)
      else ((w.emit (.send (w.send.nextChunk io) false)).sendTaskClear, some .lost) := by
  obtain ⟨path, hfp⟩ := h.file
  have hplan : fileChunkPlan w.send.size fileChunkDataMax (w.send.sent / fileChunkDataMax) =
      some (w.send.sent, w.send.nextLen) :=
    fileChunkPlan_of_dvd (lt_trans h.size (by decide)) hmore (h.chunks hmore)
  unfold tickChunk
  rw [hplan]
  dsimp only
  rw [hfp]
  dsimp only
  show ite ((w.send.nextData io).length ≠ w.send.nextLen) _ _ = _
  split_ifs with hread hok
  · rfl
  -- the piece was read whole, and the buffer of the chunk holds it
  all_goals
    have hframe : protocolBuildChunk w.send.tid w.send.sent (w.send.nextData io)
        (protoHeaderSize + 12 + fileChunkDataMax) = some (w.send.nextChunk io) := by
      refine protocolBuildChunk_eq (w := (w.send.sent, w.send.nextData io)) ?_
      rw [not_not.mp hread]
      exact min_le_left _ _
    dsimp only [SendTask.nextData] at hframe
    rw [hframe]
  · rw [hok]
    rfl
  · rw [Bool.not_eq_true _ |>.mp hok]
    rfl

/-- The loop of a tick sends what `TickChunks` says. -/
theorem tickLoop_chunks (io : TickIo) (fuel i : Nat) (w : World) (h : AtChunk w.send) :
    ∃ fs, TickChunks io fuel w.send (tickLoop io fuel i w).1.send fs (tickLoop io fuel i w).2 ∧
      (tickLoop io fuel i w).1.framesTried = w.framesTried ++ fs := by
  have hend : ∀ w : World, w.tickEnd.send = w.send.ended := by
    intro w
    unfold tickEnd SendTask.ended
    split_ifs <;> rfl
  induction fuel generalizing i w with
  | zero => exact ⟨[], hend w ▸ .stop 0 w.send (Or.inl rfl), by simp [tickLoop]⟩
  | succ fuel ih =>
    rw [tickLoop]
    by_cases hmore : w.send.sent < w.send.size
    swap
    · rw [if_neg hmore]
      exact ⟨[], hend w ▸ .stop _ w.send (Or.inr (by omega)), by simp⟩
    rw [if_pos hmore, tickChunk_next h hmore]
    split_ifs with hread hok
    -- a short read: the peer is told, and the task given up
    · refine ⟨[(cancelFrame w.send.tid, io.sendOk i)], ?_, ?_⟩
      · simpa using TickChunks.short fuel w.send hmore hread (io.sendOk i)
      · simp [cancelFrame]
    -- the chunk is out, and the next round starts behind it
    · obtain ⟨mark, hmark⟩ := ((w.emit (.send (w.send.nextChunk io) true)).setSend
        (w.send.advanced w.send.nextLen)).send_showProgress
      have hnext := h.advanced mark
      obtain ⟨fs, hfs, hframes⟩ := ih (i + 1) ((w.emit (.send (w.send.nextChunk io) true)).setSend
        (w.send.advanced w.send.nextLen)).showProgress (by rw [hmark]; exact hnext)
      rw [hmark] at hfs
      refine ⟨(w.send.nextChunk io, true) :: fs,
        .sent mark hmore (not_not.mp hread) hfs, ?_⟩
      show (tickLoop io fuel (i + 1) _).1.framesTried = _
      rw [hframes]
      simp [Effect.triedFrame]
    -- the connection is lost
    · refine ⟨[(w.send.nextChunk io, false)], ?_, ?_⟩
      · simpa using TickChunks.lost fuel w.send hmore (not_not.mp hread)
      · simp [Effect.triedFrame]

/-! ### The commands of the receiving side -/

theorem send_acceptTid (w : World) (io : Io) (tid : Nat) :
    (w.acceptTid io tid).1.send = w.send := by
  have hbranch := w.acceptTid_branch io tid
  generalize w.acceptTid io tid = res at hbranch ⊢
  cases hbranch with
  | unknown hfind => rfl
  | early i text hfind hnot htext => rfl
  | unnamed i why h hown hwhy => simp [tasks_recvTaskReject]
  | uncreated i v t why h hown hname htid hfp hasked hwhy =>
    simp [tasks_recvTaskReject, hasked.quiet.1]
  | lost i saveName path h hown hname hpath => simp
  | accepted i saveName path h hown hname hpath => rfl

theorem send_rejectTid (w : World) (io : Io) (tid : Nat) :
    (w.rejectTid io tid).1.send = w.send := by
  unfold rejectTid
  cases w.recvTaskFind tid with
  | none => rfl
  | some i =>
    dsimp only
    split_ifs
    · rfl
    · rw [sendTid_eq]
      cases io.sendOk <;> simp

/-! ### `/sendfile` -/

/-- The INIT frame of parsed arguments fits its stack buffer. -/
theorem protocolBuildText3_init {line target filename : Bytes} {size : Nat}
    (hparse : commandsParseSendfile line maxUsernameLen maxFilenameLen = some (target, filename))
    (hsize : size < 2 ^ 63) :
    protocolBuildText3 msgFileInit target filename (decimal size)
      (protoHeaderSize + maxUsernameLen + maxFilenameLen + 32) =
        some (initFrame target filename size) := by
  obtain ⟨htarget, hfilename⟩ := commandsParseSendfile_length hparse
  have hdigits : (decimal size).length ≤ 19 := length_decimal_le (by decide) (by omega)
  simp only [maxUsernameLen, maxFilenameLen] at htarget hfilename
  have hlen : (target ++ [0] ++ filename ++ [0] ++ decimal size ++ [0]).length ≤ 320 := by
    simp only [List.length_append, List.length_singleton]
    omega
  refine buildPayload_eq ⟨msgFileInit, _, lt_of_le_of_lt hlen (by decide)⟩ ?_
  simp only [protoHeaderSize, maxUsernameLen, maxFilenameLen]
  omega

/-- `/sendfile` is refused without an error, or it registers a task and sends INIT. -/
theorem fileCmdSendfile_move (w : World) (io : SendfileIo) (line : Bytes) :
    ∃ fs, SendMove w.send (.sendfile line io) (w.fileCmdSendfile io line).1.send fs
        (w.fileCmdSendfile io line).2 ∧
      (w.fileCmdSendfile io line).1.framesTried = w.framesTried ++ fs ∧
      (fs = [] → (w.fileCmdSendfile io line).2 = .ok) := by
  apply w.fileCmdSendfile_cases (P := fun res => ∃ fs,
    SendMove w.send (.sendfile line io) res.1.send fs res.2 ∧
      res.1.framesTried = w.framesTried ++ fs ∧ (fs = [] → res.2 = .ok))
  case refused => exact fun _ _ _ _ => ⟨[], .keep _ _, by simp, fun _ => rfl⟩
  case givenUp =>
    exact fun _ _ _ _ _ => ⟨[], .keep _ _, by simp [Effect.triedFrame], fun _ => rfl⟩
  case submitted =>
    intro target filename h
    have hlong := io.fsizeLong
    have hmove := SendMove.submit (t := w.send) line io target filename h.parse h.idle h.size
    refine ⟨[(initFrame target filename io.fsize.toNat, io.sendOk)], ?_, ?_, by simp⟩
    all_goals
      unfold sendInit
      dsimp only
      rw [protocolBuildText3_init h.parse (by omega)]
      dsimp only [connSendAll]
    · cases hok : io.sendOk with
      | false =>
        rw [hok] at hmove
        simpa using hmove
      | true =>
        rw [hok] at hmove
        simpa [SendTask.submitted] using hmove
    · cases io.sendOk <;> simp [Effect.triedFrame]

/-! ### `/cancel` and the tick -/

/-- A `/cancel` that does not find the send task leaves it alone. -/
theorem send_cancelTid {w : World} {tid : Nat} (hm : ¬ w.sendTaskMatches tid = true) (io : Io) :
    (w.cancelTid io tid).1.send = w.send := by
  unfold cancelTid
  rw [if_neg hm, sendTid_eq]
  cases w.recvTaskFind tid with
  | none => rfl
  | some i => cases io.sendOk <;> simp

/-- A `/cancel` that finds the send task sends CANCEL for it, and clears it if that worked. -/
theorem cancelTid_move {w : World} {line : Bytes} {tid : Nat}
    (harg : commandsParseTidArg (line.drop 7) = some tid) (hm : w.sendTaskMatches tid = true)
    (io : Io) :
    SendMove w.send (.cancel line io) (w.cancelTid io tid).1.send [(cancelFrame tid, io.sendOk)]
        (w.cancelTid io tid).2 ∧
      (w.cancelTid io tid).1.framesTried = w.framesTried ++ [(cancelFrame tid, io.sendOk)] := by
  obtain ⟨hbusy, rfl⟩ := sendTaskMatches_iff.mp hm
  have hmove := SendMove.cancel (t := w.send) line io harg hbusy
  have hsent : (w.emit (.send (tidFrame msgFileCancel w.send.tid).encode io.sendOk)).framesTried =
      w.framesTried ++ [(cancelFrame w.send.tid, io.sendOk)] := by
    rw [framesTried_emit]
    rfl
  unfold cancelTid
  rw [if_pos hm, sendTid_eq]
  cases hok : io.sendOk with
  | false =>
    rw [hok] at hmove hsent
    exact ⟨hmove, hsent⟩
  | true =>
    rw [hok] at hmove hsent
    refine ⟨by simpa using hmove, ?_⟩
    rw [framesTried_print, framesTried_sendTaskClear, hsent]

/-- A tick does nothing, sends COMPLETE, or sends chunks. -/
theorem fileSendTick_move {w : World} (h : SendOk w.send) (io : TickIo) :
    ∃ fs, SendMove w.send (.tick io) (w.fileSendTick io).1.send fs (w.fileSendTick io).2 ∧
      (w.fileSendTick io).1.framesTried = w.framesTried ++ fs := by
  unfold fileSendTick
  by_cases hbusy : w.send.busy = true
  swap
  · rw [if_pos hbusy]
    exact ⟨[], .keep _ _, by simp⟩
  rw [if_neg (not_not_intro hbusy)]
  by_cases hidle : w.send.state ≠ .active ∧ w.send.state ≠ .done
  · rw [if_pos hidle]
    exact ⟨[], .keep _ _, by simp⟩
  rw [if_neg hidle]
  by_cases hdone : w.send.state = .done
  · have hmove := SendMove.complete io hbusy hdone
    refine ⟨[(completeFrame w.send.tid, io.sendOk 0)], ?_, ?_⟩
    all_goals rw [if_pos hdone, sendTid_eq]
    · cases hok : io.sendOk 0 with
      | false =>
        rw [hok] at hmove
        exact hmove
      | true =>
        rw [hok] at hmove
        exact hmove
    · cases io.sendOk 0 <;> simp [Effect.triedFrame] <;> rfl
  · have hactive : w.send.state = .active := by
      by_contra hne
      exact hidle ⟨hne, hdone⟩
    rw [if_neg hdone]
    obtain ⟨fs, hfs, hframes⟩ :=
      tickLoop_chunks io fileChunksPerRound 0 w (h.atChunk hbusy hactive)
    exact ⟨fs, .chunks io _ fs _ hbusy hactive hfs, hframes⟩

end World

/-! ### The step specification -/

/-- **Step specification of the send task**: every event moves it in one of the listed ways. -/
theorem sendMove_fileStep {w : World} (h : SendOk w.send) (e : FileEvent) :
    SendMove w.send e (fileStep w e).send (sendFrames w e) (fileStatus w e) := by
  cases e with
  | sendfile line io =>
    obtain ⟨fs, hmove, hframes, -⟩ := w.fileCmdSendfile_move io line
    have heq : eventFrames w (.sendfile line io) = fs := eventFrames_eq hframes
    rw [sendFrames_of_sends rfl, heq]
    exact hmove
  | tick io =>
    obtain ⟨fs, hmove, hframes⟩ := World.fileSendTick_move h io
    have heq : eventFrames w (.tick io) = fs := eventFrames_eq hframes
    rw [sendFrames_of_sends rfl, heq]
    exact hmove
  | cancel line io =>
    rw [fileStep, fileStatus, World.fileCmdCancel]
    cases harg : commandsParseTidArg (line.drop 7) with
    | none =>
      rw [sendFrames_cancel_none w io harg]
      exact .keep _ _
    | some tid =>
      rw [sendFrames_cancel w io harg]
      dsimp only
      split_ifs with hm
      · obtain ⟨hmove, hframes⟩ := World.cancelTid_move harg hm io
        have heq : eventFrames w (.cancel line io) = [(cancelFrame tid, io.sendOk)] := by
          refine eventFrames_eq ?_
          rw [fileStep, World.fileCmdCancel, harg]
          exact hframes
        rw [heq]
        exact hmove
      · rw [World.send_cancelTid hm io]
        exact .keep _ _
  | accept line io =>
    rw [fileStep, World.fileCmdAccept, sendFrames_of_not_sends rfl]
    cases harg : commandsParseTidArg (line.drop 7) with
    | none => exact .keep _ _
    | some tid =>
      dsimp only
      rw [World.send_acceptTid]
      exact .keep _ _
  | reject line io =>
    rw [fileStep, World.fileCmdReject, sendFrames_of_not_sends rfl]
    cases harg : commandsParseTidArg (line.drop 7) with
    | none => exact .keep _ _
    | some tid =>
      dsimp only
      rw [World.send_rejectTid]
      exact .keep _ _
  | announcement text io =>
    rw [sendFrames_of_not_sends rfl]
    exact .signal _ _ trivial (fileStep_spec w _).send
  | frame type payload io =>
    rw [sendFrames_of_not_sends rfl]
    exact .signal _ _ trivial (fileStep_spec w _).send
  | error code io =>
    rw [sendFrames_of_not_sends rfl]
    exact .signal _ _ trivial (fileStep_spec w _).send
  | reset io =>
    rw [sendFrames_of_not_sends rfl]
    exact .signal _ _ trivial (fileStep_spec w _).send

/-! ### The invariant -/

theorem SendOk.submitted {target filename : Bytes} {size : Nat} (hpos : 0 < size)
    (hlong : size < 2 ^ 63) : SendOk (SendTask.submitted target filename size) where
  idle h := absurd h (by simp [SendTask.submitted])
  file _ := rfl
  size _ := ⟨hpos, hlong⟩
  started _ := by simp [SendTask.submitted]
  unsent _ := rfl
  active h := absurd h (by simp [SendTask.submitted])
  done h := absurd h (by simp [SendTask.submitted])

/-- Announcements, frames, errors and reset. -/
theorem SendOk.signal {t t' : SendTask} {e : FileEvent} (h : SendOk t) (he : e.Signal)
    (hs : SendStep t e t') : SendOk t' := by
  cases hs with
  | keep => exact h
  | submit => exact he.elim
  | submitLost => exact .zero
  | assign text io tid hparse hbusy hstate =>
    -- the task has its id, and nothing has been read yet
    have hunsent := h.unsent (Or.inl hstate)
    exact ⟨fun hidle => absurd hidle (by simp [hbusy]), fun _ => h.file hbusy,
      fun _ => h.size hbusy, fun _ => by simp, fun _ => hunsent,
      fun hst => absurd hst (by simp), fun hst => absurd hst (by simp)⟩
  | accept _ haddr hbusy hstate =>
    have hunsent := h.unsent (Or.inr hstate)
    have hpos := (h.size hbusy).1
    -- no file is empty, so the cursor at 0 has a chunk in front of it
    refine ⟨fun hidle => absurd hidle (by simp [hbusy]), fun _ => h.file hbusy,
      fun _ => h.size hbusy, fun _ => by simp, fun hst => absurd hst (by simp), fun _ => ?_,
      fun hst => absurd hst (by simp)⟩
    show t.sent < t.size ∧ fileChunkDataMax ∣ t.sent
    rw [hunsent]
    exact ⟨hpos, Nat.dvd_zero _⟩
  | clear => exact .zero
  | noSuchUser => exact .zero
  | transferState => exact .zero
  | tick => exact he.elim
  | reset => exact .zero

/-- An active task between two rounds of a tick: what `SendOk` asks of it, except that
    everything may be sent already. -/
structure Ticking (t : SendTask) : Prop where
  busy : t.busy = true
  active : t.state = .active
  file : t.fp = some ⟨t.filename, t.sent⟩
  size : 0 < t.size ∧ t.size < 2 ^ 63
  sent : t.sent ≤ t.size
  chunks : t.sent < t.size → fileChunkDataMax ∣ t.sent

theorem SendOk.ticking {t : SendTask} (h : SendOk t) (hbusy : t.busy = true)
    (hactive : t.state = .active) : Ticking t :=
  ⟨hbusy, hactive, h.file hbusy, h.size hbusy, le_of_lt (h.active hactive).1,
    fun _ => (h.active hactive).2⟩

theorem Ticking.atChunk {t : SendTask} (h : Ticking t) : AtChunk t :=
  ⟨⟨_, h.file⟩, h.size.2, h.chunks⟩

theorem Ticking.advanced {t : SendTask} (h : Ticking t) (mark : Nat) :
    Ticking { t.advanced t.nextLen with nextProgressMark := mark } := by
  refine ⟨h.busy, h.active, ?_, h.size, ?_, (h.atChunk.advanced mark).chunks⟩
  · simp [SendTask.advanced, h.file]
  · have hle := h.sent
    show t.sent + t.nextLen ≤ t.size
    unfold SendTask.nextLen
    omega

theorem Ticking.ended {t : SendTask} (h : Ticking t) : SendOk t.ended := by
  have hsent := h.sent
  unfold SendTask.ended
  split_ifs with hall
  · exact ⟨fun hidle => absurd hidle (by simp [h.busy]), fun _ => h.file, fun _ => h.size,
      fun _ => by simp, fun hst => absurd hst (by simp), fun hst => absurd hst (by simp),
      fun _ => show t.sent = t.size by omega⟩
  · refine ⟨fun hidle => absurd hidle (by simp [h.busy]), fun _ => h.file, fun _ => h.size,
      fun _ => by simp [h.active], fun hst => absurd hst (by simp [h.active]), fun _ => ?_,
      fun hst => absurd hst (by simp [h.active])⟩
    exact ⟨by omega, h.chunks (by omega)⟩

/-- The rounds of a tick. -/
theorem Ticking.chunksOk {io : TickIo} {fuel : Nat} {t t' : SendTask} {fs : List (Bytes × Bool)}
    {st : Status} (hs : TickChunks io fuel t t' fs st) (h : Ticking t) : SendOk t' := by
  induction hs with
  | stop fuel t hend => exact h.ended
  | sent mark hmore hread hrest ih => exact ih (h.advanced mark)
  | lost => exact .zero
  | short => exact .zero

/-- **Step lemma.** Every move keeps the invariant. -/
theorem SendOk.move {t t' : SendTask} {e : FileEvent} {fs : List (Bytes × Bool)} {st : Status}
    (h : SendOk t) (hm : SendMove t e t' fs st) : SendOk t' := by
  cases hm with
  | keep => exact h
  | signal _ _ he hs => exact h.signal he hs
  | submit line io target filename hparse hfree hsize =>
    have hlong := io.fsizeLong
    split_ifs
    · exact .submitted (by omega) (by omega)
    · exact .zero
  | cancel line io haddr hbusy =>
    split_ifs
    · exact .zero
    · exact h
  | complete io hbusy hdone =>
    have hall := h.done (Or.inl hdone)
    split_ifs
    · exact ⟨fun hidle => absurd hidle (by simp [hbusy]), fun _ => h.file hbusy,
        fun _ => h.size hbusy, fun _ => by simp, fun hst => absurd hst (by simp),
        fun hst => absurd hst (by simp), fun _ => hall⟩
    · exact h
  | chunks io _ fs st hbusy hactive hs => exact (h.ticking hbusy hactive).chunksOk hs

/-- **In every reachable state the send task is in order.** -/
theorem Reachable.sendOk {w : World} (h : Reachable w) : SendOk w.send :=
  h.invariant (P := fun w => SendOk w.send) (fun _ => .zero)
    fun _ e hw => hw.move (sendMove_fileStep hw e)

end TCPClient
