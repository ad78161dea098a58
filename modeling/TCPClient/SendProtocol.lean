import TCPClient.SendInvariant
import TCPClient.Progress

namespace TCPClient

open Octets Cover

/-!
# The sending side of the protocol

All frames one send task sends, from `/sendfile` on, in any run: `SendHistory` lists the shapes
their sequence can have, `Stage` relates the sequence so far to the state of the task, and
`sendTask_conforms` is the result.
-/

/-- A signal that the peer has accepted the transfer. -/
inductive AcceptSignal (tid : Nat) : FileEvent → Prop where
  | announcement (text : Bytes) (io : Io)
      (hparse : fileParseAnnouncement text = some (.accepted, tid)) :
      AcceptSignal tid (.announcement text io)
  | frame (payload : Bytes) (io : Io) (h4 : payload.length = 4)
      (htid : utilsReadU32Be payload = tid) : AcceptSignal tid (.frame msgFileAccept payload io)

/-- CHUNK frames number 0, 1, 2, … -/
def chunkFrames (tid : Nat) (ds : List Bytes) : List Bytes :=
  ds.mapIdx fun i d => chunkFrame tid (fileChunkDataMax * i, d)

/-- The sequences of frames a task for a file of `size` bytes may send, when `ds` are the data of
    its chunks.  COMPLETE comes behind all bytes of the file; a CANCEL is the last frame. -/
inductive SendHistory (init : Bytes) (size tid : Nat) (ds : List Bytes) : List Bytes → Prop where
  | nothing : SendHistory init size tid ds []
  | sending : SendHistory init size tid ds (init :: chunkFrames tid ds)
  | cancelled : SendHistory init size tid ds (init :: chunkFrames tid ds ++ [cancelFrame tid])
  | completed (hall : (ds.map List.length).sum = size) :
      SendHistory init size tid ds (init :: chunkFrames tid ds ++ [completeFrame tid])
  | completedCancelled (hall : (ds.map List.length).sum = size) :
      SendHistory init size tid ds
        (init :: chunkFrames tid ds ++ [completeFrame tid, cancelFrame tid])

/-- Chunk `i` has the planned offset and length and carries what the file gave at that offset in
    one of the ticks. -/
def ChunksOf (size : Nat) (events : List FileEvent) (ds : List Bytes) : Prop :=
  ∀ i d, ds[i]? = some d →
    fileChunkPlan size fileChunkDataMax i = some (fileChunkDataMax * i, d.length) ∧
      ∃ io, .tick io ∈ events ∧ d = (io.fread (fileChunkDataMax * i) d.length).take d.length

/-- The frames are those of a send task with this INIT frame for a file of `size` bytes; chunks
    are among them only behind an accept signal with the id they carry. -/
def SendConforms (init : Bytes) (size : Nat) (events : List FileEvent) (frames : List Bytes) :
    Prop :=
  ∃ tid ds, SendHistory init size tid ds frames ∧ ChunksOf size events ds ∧
    (ds ≠ [] → ∃ e ∈ events, AcceptSignal tid e)

/-- The frames that went out. -/
def wentOut (frames : List (Bytes × Bool)) : List Bytes := (frames.filter Prod.snd).map Prod.fst

/-- The frames a run sends for the send task. -/
def taskFrames : World → List FileEvent → List (Bytes × Bool)
  | _, [] => []
  | w, e :: events => sendFrames w e ++ taskFrames (fileStep w e) events

/-- No `/sendfile` of the run sends an INIT frame, so no further task is submitted. -/
def NoSubmit : World → List FileEvent → Prop
  | _, [] => True
  | w, e :: events =>
    (∀ line io, e = .sendfile line io → sendFrames w e = []) ∧ NoSubmit (fileStep w e) events

/-- The event loop is left when a call reports a lost connection; only the reset of
    `app_destroy` follows. -/
def StopsWhenLost : World → List FileEvent → Prop
  | _, [] => True
  | w, e :: events =>
    (fileStatus w e = .lost → ∀ e' ∈ events, ∃ io, e' = .reset io) ∧
      StopsWhenLost (fileStep w e) events

/-! ### What an accept signal is needed for -/

namespace World

theorem send_recvTaskComplete (w : World) (io : Io) (tid : Nat) :
    (w.recvTaskComplete io tid).send = w.send := by
  unfold recvTaskComplete
  cases w.recvTaskFind tid with
  | none => rfl
  | some i =>
    dsimp only
    split_ifs <;> simp [tasks_recvTaskFinish]

theorem send_recvChunk (w : World) (io : Io) (tid offset : Nat) (data : Bytes) :
    (w.recvChunk io tid offset data).send = w.send := by
  unfold recvChunk
  cases w.recvTaskFind tid with
  | none => rfl
  | some i =>
    dsimp only
    cases (w.recv i).fp with
    | none => rfl
    | some h =>
      dsimp only
      split_ifs <;> simp [tasks_recvTaskAbort]

theorem send_cancelled (w : World) (io : Io) (tid : Nat) :
    (w.cancelled io tid).send = SendTask.zero ∨ (w.cancelled io tid).send = w.send := by
  unfold cancelled
  split_ifs
  · simp
  · cases w.recvTaskFind tid with
    | none => exact Or.inr rfl
    | some i => simp

theorem send_rejected (w : World) (tid : Nat) :
    (w.rejected tid).send = SendTask.zero ∨ (w.rejected tid).send = w.send := by
  unfold rejected
  split_ifs
  · simp
  · exact Or.inr rfl

end World

/-- Of the signals only one with the task's id can make it active. -/
theorem SendStep.addressee_of_active {t t' : SendTask} {e : FileEvent} (hs : SendStep t e t')
    (he : e.Signal) (h : t.state ≠ .active) (h' : t'.state = .active) :
    e.addressee = some t.tid := by
  cases hs with
  | keep => exact absurd h' h
  | accept _ haddr hbusy hstate => exact haddr
  | assign => exact absurd h' (by simp)
  | submit => exact he.elim
  | tick => exact he.elim
  | _ => exact absurd h' (by simp [SendTask.zero])

/-- **Only an accept signal with the task's id makes it active.** -/
theorem acceptSignal_of_active {w : World} {e : FileEvent} (he : e.Signal)
    (h : w.send.state ≠ .active) (h' : (fileStep w e).send.state = .active) :
    AcceptSignal w.send.tid e := by
  have haddr := (fileStep_spec w e).send.addressee_of_active he h h'
  -- the other signals with the task's id clear it or leave it alone
  have hsame : ∀ t : SendTask, t = SendTask.zero ∨ t = w.send → t.state ≠ .active := by
    rintro t (rfl | rfl)
    · simp [SendTask.zero]
    · exact h
  cases e with
  | announcement text io =>
    rw [FileEvent.addressee] at haddr
    rw [fileStep, World.fileHandleAnnouncement] at h'
    cases hparse : fileParseAnnouncement text with
    | none =>
      rw [hparse] at h'
      exact absurd h' h
    | some res =>
      obtain ⟨kind, tid⟩ := res
      rw [hparse] at haddr h'
      dsimp only at haddr
      split_ifs at haddr with hkind
      obtain rfl : tid = w.send.tid := Option.some.inj haddr
      cases kind with
      | accepted => exact .announcement text io hparse
      | rejected => exact absurd h' (hsame _ (w.send_rejected _))
      | cancelled => exact absurd h' (hsame _ (w.send_cancelled io _))
      | cancelledDisc => exact absurd h' (hsame _ (w.send_cancelled io _))
      | complete =>
        dsimp only [World.announced] at h'
        split_ifs at h'
        · exact absurd h' (hsame _ (Or.inl (by simp)))
        · exact absurd h' (hsame _ (Or.inr (w.send_recvTaskComplete io _)))
      | _ => exact absurd hkind (by simp)
  | frame type payload io =>
    rw [FileEvent.addressee] at haddr
    rw [fileStep] at h'
    by_cases h4 : payload.length = 4
    · rw [if_pos h4] at haddr
      rw [World.fileFrame_control w io type h4, World.controlFrame] at h'
      split_ifs at haddr h' with htype h1 h2 h3 h5
      · subst h1
        exact .frame payload io h4 (Option.some.inj haddr)
      · exact absurd h' (hsame _ (w.send_rejected _))
      · exact absurd h' (hsame _ (w.send_cancelled io _))
      · exact absurd h' (hsame _ (Or.inr (w.send_recvTaskComplete io _)))
      · exact absurd h' h
    · rw [if_neg h4] at haddr
      split_ifs at haddr with hchunk
      obtain ⟨rfl, h12⟩ := hchunk
      rw [World.fileFrame_chunk w io h12] at h'
      exact absurd h' (hsame _ (Or.inr (w.send_recvChunk io _ _ _)))
  | error code io => exact absurd haddr (by simp [FileEvent.addressee])
  | reset io => exact absurd haddr (by simp [FileEvent.addressee])
  | _ => exact he.elim

/-! ### Chunks so far -/

theorem chunkFrames_concat (tid : Nat) (ds : List Bytes) (d : Bytes) :
    chunkFrames tid (ds ++ [d]) =
      chunkFrames tid ds ++ [chunkFrame tid (fileChunkDataMax * ds.length, d)] := by
  rw [chunkFrames, List.mapIdx_concat]
  rfl

theorem ChunksOf.nil (size : Nat) (events : List FileEvent) : ChunksOf size events [] :=
  fun i d h => absurd h (by simp)

theorem ChunksOf.mono {size : Nat} {events events' : List FileEvent} {ds : List Bytes}
    (h : ChunksOf size events ds) (hsub : events ⊆ events') : ChunksOf size events' ds := by
  intro i d hd
  obtain ⟨hplan, io, hmem, hread⟩ := h i d hd
  exact ⟨hplan, io, hsub hmem, hread⟩

theorem SendConforms.mono {init : Bytes} {size : Nat} {events events' : List FileEvent}
    {frames : List Bytes} (h : SendConforms init size events frames) (hsub : events ⊆ events') :
    SendConforms init size events' frames := by
  obtain ⟨tid, ds, hhist, hds, haccept⟩ := h
  exact ⟨tid, ds, hhist, hds.mono hsub, fun hne => (haccept hne).imp fun _ he => ⟨hsub he.1, he.2⟩⟩

/-- The accepted task `t` has sent the chunks `ds` and nothing behind them. -/
structure Chunking (size : Nat) (events : List FileEvent) (t : SendTask) (ds : List Bytes) :
    Prop where
  sizeEq : t.size = size
  sent : t.sent = min (fileChunkDataMax * ds.length) size
  total : (ds.map List.length).sum = t.sent
  chunks : ChunksOf size events ds
  accept : ∃ e ∈ events, AcceptSignal t.tid e

theorem Chunking.conforms {init : Bytes} {size : Nat} {events : List FileEvent} {t : SendTask}
    {ds : List Bytes} (h : Chunking size events t ds) {frames : List Bytes}
    (hhist : SendHistory init size t.tid ds frames) : SendConforms init size events frames :=
  ⟨t.tid, ds, hhist, h.chunks, fun _ => h.accept⟩

theorem Chunking.mono {size : Nat} {events events' : List FileEvent} {t : SendTask}
    {ds : List Bytes} (h : Chunking size events t ds) (hsub : events ⊆ events') :
    Chunking size events' t ds :=
  ⟨h.sizeEq, h.sent, h.total, h.chunks.mono hsub, h.accept.imp fun _ he => ⟨hsub he.1, he.2⟩⟩

/-- One more chunk: its frame, and the task behind it. -/
theorem Chunking.next {size : Nat} {events : List FileEvent} {t : SendTask} {ds : List Bytes}
    (h : Chunking size events t ds) (hlong : size < 2 ^ 63) {io : TickIo}
    (hio : .tick io ∈ events) (hmore : t.sent < t.size)
    (hread : (t.nextData io).length = t.nextLen) (mark : Nat) :
    t.nextChunk io = chunkFrame t.tid (fileChunkDataMax * ds.length, t.nextData io) ∧
      Chunking size events { t.advanced t.nextLen with nextProgressMark := mark }
        (ds ++ [t.nextData io]) := by
  -- only the last chunk may be short, and this one is not behind it
  have hsent : t.sent = fileChunkDataMax * ds.length := by
    have hs := h.sent
    rw [h.sizeEq] at hmore
    omega
  have hplan : fileChunkPlan size fileChunkDataMax ds.length =
      some (fileChunkDataMax * ds.length, t.nextLen) := by
    rw [h.sizeEq, hsent] at hmore
    have hplan := fileChunkPlan_of_dvd (lt_trans hlong (by decide)) hmore (Dvd.intro _ rfl)
    rw [Nat.mul_div_cancel_left _ fileChunkDataMax_pos] at hplan
    rw [hplan, SendTask.nextLen, h.sizeEq, hsent]
  refine ⟨by rw [SendTask.nextChunk, hsent], h.sizeEq, ?_, ?_, ?_, h.accept⟩
  · show t.sent + t.nextLen = _
    rw [h.sizeEq] at hmore
    rw [SendTask.nextLen, h.sizeEq, List.length_append, List.length_singleton, Nat.mul_succ]
    omega
  · show _ = t.sent + t.nextLen
    rw [List.map_append, List.sum_append, h.total]
    simp [hread]
  · intro i d hd
    rw [List.getElem?_append] at hd
    split_ifs at hd with hi
    · exact h.chunks i d hd
    · -- the new chunk
      have hi0 : i = ds.length := by
        have hlen := (List.getElem?_eq_some_iff.mp hd).1
        simp only [List.length_singleton] at hlen
        omega
      subst hi0
      obtain rfl : t.nextData io = d := by simpa using hd
      refine ⟨by rw [hread]; exact hplan, io, hio, ?_⟩
      rw [hread, SendTask.nextData, hsent]

/-! ### The stages of a task -/

/-- Where a task stands that has sent `frames` since its INIT. -/
inductive Stage (init : Bytes) (size : Nat) (events : List FileEvent) :
    SendTask → List Bytes → Prop where
  | offered (t : SendTask) (hsize : t.size = size)
      (hstate : t.state = .pendingTid ∨ t.state = .pending) (hbusy : t.busy = true) :
      Stage init size events t [init]
  | sending (t : SendTask) (ds : List Bytes) (hbusy : t.busy = true)
      (hstate : t.state = .active ∨ t.state = .done) (h : Chunking size events t ds) :
      Stage init size events t (init :: chunkFrames t.tid ds)
  | waiting (t : SendTask) (ds : List Bytes) (hbusy : t.busy = true)
      (hstate : t.state = .waitComplete) (h : Chunking size events t ds) (hall : t.sent = size) :
      Stage init size events t (init :: chunkFrames t.tid ds ++ [completeFrame t.tid])
  | ended (frames : List Bytes) (h : SendConforms init size events frames) :
      Stage init size events SendTask.zero frames

variable {init : Bytes} {size : Nat} {events : List FileEvent} {t : SendTask} {frames : List Bytes}

theorem Stage.conforms (h : Stage init size events t frames) :
    SendConforms init size events frames := by
  cases h with
  | offered => exact ⟨0, [], .sending, .nil _ _, fun hne => absurd rfl hne⟩
  | sending _ ds hbusy hstate h => exact h.conforms .sending
  | waiting _ ds hbusy hstate h hall => exact h.conforms (.completed (h.total.trans hall))
  | ended _ h => exact h

/-- In the first two states only the INIT has been sent. -/
theorem Stage.offered_inv (h : Stage init size events t frames) (hbusy : t.busy = true)
    (hstate : t.state = .pendingTid ∨ t.state = .pending) : t.size = size ∧ frames = [init] := by
  cases h with
  | offered _ hsize => exact ⟨hsize, rfl⟩
  | sending _ ds _ hst => rcases hstate with hs | hs <;> simp [hs] at hst
  | waiting _ ds _ hst => simp [hst] at hstate
  | ended => exact absurd hbusy SendTask.not_busy_zero

/-- In the next two only chunks are behind it. -/
theorem Stage.sending_inv (h : Stage init size events t frames) (hbusy : t.busy = true)
    (hstate : t.state = .active ∨ t.state = .done) :
    ∃ ds, Chunking size events t ds ∧ frames = init :: chunkFrames t.tid ds := by
  cases h with
  | offered _ _ hst => rcases hstate with hs | hs <;> simp [hs] at hst
  | sending _ ds _ _ h => exact ⟨ds, h, rfl⟩
  | waiting _ ds _ hst => simp [hst] at hstate
  | ended => exact absurd hbusy SendTask.not_busy_zero

theorem Stage.mono {events' : List FileEvent} (h : Stage init size events t frames)
    (hsub : events ⊆ events') : Stage init size events' t frames := by
  cases h with
  | offered _ hsize hstate hbusy => exact .offered t hsize hstate hbusy
  | sending _ ds hbusy hstate h => exact .sending t ds hbusy hstate (h.mono hsub)
  | waiting _ ds hbusy hstate h hall => exact .waiting t ds hbusy hstate (h.mono hsub) hall
  | ended _ h => exact .ended frames (h.mono hsub)

/-- A CANCEL may follow at every stage of a task. -/
theorem Stage.cancel (h : Stage init size events t frames) (hbusy : t.busy = true) :
    SendConforms init size events (frames ++ [cancelFrame t.tid]) := by
  cases h with
  | offered => exact ⟨t.tid, [], .cancelled, .nil _ _, fun hne => absurd rfl hne⟩
  | sending _ ds _ hstate h => exact h.conforms .cancelled
  | waiting _ ds _ hstate h hall =>
    rw [List.append_assoc]
    exact h.conforms (.completedCancelled (h.total.trans hall))
  | ended => exact absurd hbusy SendTask.not_busy_zero

/-- A move of the task behind `frames`: the frames that went out lead to the next stage, and so
    do those that were tried, unless the connection is reported lost. -/
structure Moved (init : Bytes) (size : Nat) (events : List FileEvent) (frames : List Bytes)
    (t' : SendTask) (fs : List (Bytes × Bool)) (st : Status) : Prop where
  sent : Stage init size events t' (frames ++ wentOut fs)
  tried : SendConforms init size events (frames ++ fs.map Prod.fst)
  alive : st = .ok → Stage init size events t' (frames ++ fs.map Prod.fst)

/-- A move without frames. -/
theorem Moved.silent {t' : SendTask} {st : Status} (h : Stage init size events t' frames) :
    Moved init size events frames t' [] st := by
  have hnil : frames ++ wentOut [] = frames := List.append_nil frames
  refine ⟨by rwa [hnil], ?_, fun _ => ?_⟩
  · rw [List.map_nil, List.append_nil]
    exact h.conforms
  · rwa [List.map_nil, List.append_nil]

/-- A last frame, whether or not it goes out. -/
theorem Moved.last {frame : Bytes} {ok : Bool} {st : Status}
    (h : SendConforms init size events frames)
    (h' : SendConforms init size events (frames ++ [frame])) :
    Moved init size events frames SendTask.zero [(frame, ok)] st := by
  refine ⟨.ended _ ?_, h', fun _ => .ended _ h'⟩
  cases ok with
  | true => exact h'
  | false =>
    show SendConforms init size events (frames ++ [])
    rwa [List.append_nil]

/-- The rounds of a tick. -/
theorem Chunking.tick {io : TickIo} {fuel : Nat} {t t' : SendTask} {fs : List (Bytes × Bool)}
    {st : Status} {ds : List Bytes} (hs : TickChunks io fuel t t' fs st) (ht : Ticking t)
    (hio : .tick io ∈ events) (h : Chunking size events t ds) :
    Moved init size events (init :: chunkFrames t.tid ds) t' fs st := by
  induction hs generalizing ds with
  | stop fuel t hend =>
    have htid : t.ended.tid = t.tid := by
      unfold SendTask.ended
      split_ifs <;> rfl
    rw [← htid]
    refine .silent (.sending _ ds ?_ ?_ ?_)
    all_goals
      unfold SendTask.ended
      split_ifs
    · exact ht.busy
    · exact ht.busy
    · exact Or.inr rfl
    · exact Or.inl ht.active
    · exact ⟨h.sizeEq, h.sent, h.total, h.chunks, h.accept⟩
    · exact h
  | @sent fuel t t' fs st mark hmore hread hrest ih =>
    -- one more chunk, and the rest of the rounds from there
    obtain ⟨hframe, hnext⟩ := h.next (h.sizeEq ▸ ht.size.2) hio hmore hread mark
    have hmoved := ih (ht.advanced mark) hnext
    have hassoc : ∀ l : List Bytes, init :: chunkFrames t.tid ds ++ t.nextChunk io :: l =
        init :: chunkFrames t.tid (ds ++ [t.nextData io]) ++ l := by
      intro l
      rw [chunkFrames_concat, hframe]
      simp
    refine ⟨?_, ?_, fun hst => ?_⟩
    · show Stage init size events t' (init :: chunkFrames t.tid ds ++ t.nextChunk io :: wentOut fs)
      rw [hassoc]
      exact hmoved.sent
    · rw [List.map_cons, hassoc]
      exact hmoved.tried
    · rw [List.map_cons, hassoc]
      exact hmoved.alive hst
  | lost fuel t hmore hread =>
    -- the chunk was tried, and is the last frame
    obtain ⟨hframe, hnext⟩ := h.next (h.sizeEq ▸ ht.size.2) hio hmore hread 0
    refine .last (h.conforms .sending) ?_
    have hlast : init :: chunkFrames t.tid ds ++ [t.nextChunk io] =
        init :: chunkFrames t.tid (ds ++ [t.nextData io]) := by
      rw [chunkFrames_concat, hframe]
      rfl
    rw [hlast]
    exact hnext.conforms .sending
  | short fuel t hmore hread ok => exact .last (h.conforms .sending) (h.conforms .cancelled)

/-- Signals send nothing and move a task from stage to stage. -/
theorem Stage.signal {w : World} {e : FileEvent} (h : Stage init size events w.send frames)
    (hok : SendOk w.send) (he : e.Signal) (hmem : e ∈ events) :
    Stage init size events (fileStep w e).send frames := by
  have hs := (fileStep_spec w e).send
  have hover : Stage init size events SendTask.zero frames := .ended _ h.conforms
  have hactive := acceptSignal_of_active (w := w) he
  generalize (fileStep w e).send = t' at hs hactive ⊢
  cases hs with
  | keep => exact h
  | submit => exact he.elim
  | submitLost => exact hover
  | assign text io tid hparse hbusy hstate =>
    obtain ⟨hsize, rfl⟩ := h.offered_inv hbusy (Or.inl hstate)
    exact .offered _ hsize (Or.inr rfl) hbusy
  | accept _ haddr hbusy hstate =>
    -- the chunks start here, so the accept signal is in the run in front of them
    have hsignal := hactive (by simp [hstate]) rfl
    have hsent := hok.unsent (Or.inr hstate)
    obtain ⟨hsize, rfl⟩ := h.offered_inv hbusy (Or.inr hstate)
    have hchunking : Chunking size events { w.send with state := .active } [] :=
      ⟨hsize, by simpa using hsent, by simpa using hsent.symm, .nil _ _, e, hmem, hsignal⟩
    exact .sending _ [] hbusy (Or.inl rfl) hchunking
  | clear => exact hover
  | noSuchUser => exact hover
  | transferState => exact hover
  | tick => exact he.elim
  | reset => exact hover

/-- **Step lemma.** Every event that submits no further task moves the task from stage to
    stage. -/
theorem Stage.step {w : World} {e : FileEvent} (h : Stage init size events w.send frames)
    (hok : SendOk w.send) (hmem : e ∈ events)
    (hsub : ∀ line io, e = .sendfile line io → sendFrames w e = []) :
    Moved init size events frames (fileStep w e).send (sendFrames w e) (fileStatus w e) := by
  have hmove := sendMove_fileStep hok e
  have hsignal : e.Signal → Stage init size events (fileStep w e).send frames :=
    fun he => h.signal hok he hmem
  generalize (fileStep w e).send = t', sendFrames w e = fs, fileStatus w e = st at *
  cases hmove with
  | keep => exact .silent h
  | signal _ _ he hs => exact .silent (hsignal he)
  | submit line io => exact absurd (hsub line io rfl) (by simp)
  | cancel line io haddr hbusy =>
    cases io.sendOk with
    | true => exact .last h.conforms (h.cancel hbusy)
    | false =>
      -- `/cancel` keeps the task when its frame cannot be sent
      refine ⟨?_, h.cancel hbusy, fun hst => absurd hst (by simp)⟩
      show Stage init size events w.send (frames ++ [])
      rwa [List.append_nil]
  | complete io hbusy hdone =>
    have hall := hok.done (Or.inl hdone)
    obtain ⟨ds, hc, rfl⟩ := h.sending_inv hbusy (Or.inr hdone)
    generalize w.send = t at *
    have hfull : t.sent = size := hall.trans hc.sizeEq
    have hnext : Stage init size events { t with state := .waitComplete }
        (init :: chunkFrames t.tid ds ++ [completeFrame t.tid]) :=
      .waiting { t with state := .waitComplete } ds hbusy rfl
        ⟨hc.sizeEq, hc.sent, hc.total, hc.chunks, hc.accept⟩ hfull
    cases io.sendOk 0 with
    | true => exact ⟨hnext, hnext.conforms, fun _ => hnext⟩
    | false =>
      -- the task stays DONE, and the next tick would send COMPLETE again
      refine ⟨?_, hnext.conforms, fun hst' => absurd hst' (by simp)⟩
      show Stage init size events t (init :: chunkFrames t.tid ds ++ [])
      rw [List.append_nil]
      exact .sending t ds hbusy (Or.inr hdone) hc
  | chunks io _ _ _ hbusy hactive hs =>
    have ht := hok.ticking hbusy hactive
    obtain ⟨ds, hc, rfl⟩ := h.sending_inv hbusy (Or.inl hactive)
    exact hc.tick hs ht hmem

/-! ### The run of a task -/

theorem wentOut_append (fs fs' : List (Bytes × Bool)) :
    wentOut (fs ++ fs') = wentOut fs ++ wentOut fs' := by
  simp [wentOut]

/-- **Run lemma.** The frames that went out keep the task in its stages. -/
theorem Stage.run {w : World} {frames : List Bytes} {past : List FileEvent}
    (h : Stage init size past w.send frames) (hok : SendOk w.send) {events : List FileEvent}
    (honly : NoSubmit w events) :
    Stage init size (past ++ events) (fileRun w events).send
      (frames ++ wentOut (taskFrames w events)) := by
  induction events generalizing w frames past with
  | nil =>
    have hnil : frames ++ wentOut (taskFrames w []) = frames := List.append_nil frames
    rw [hnil, List.append_nil]
    exact h
  | cons e events ih =>
    obtain ⟨hsub, hrest⟩ := honly
    have hstep := (h.mono (List.subset_append_left past [e])).step hok (by simp) hsub
    have hgo := ih hstep.sent (hok.move (sendMove_fileStep hok e)) hrest
    rw [List.append_assoc] at hgo
    rw [taskFrames, wentOut_append, ← List.append_assoc]
    exact hgo

/-- Resets send nothing. -/
theorem taskFrames_resets {events : List FileEvent} (w : World)
    (h : ∀ e ∈ events, ∃ io, e = .reset io) : taskFrames w events = [] := by
  induction events generalizing w with
  | nil => rfl
  | cons e events ih =>
    obtain ⟨io, rfl⟩ := h e (by simp)
    rw [taskFrames, ih _ fun e' he' => h e' (List.mem_cons_of_mem _ he'),
      sendFrames_of_not_sends rfl]
    rfl

/-- **Run lemma.** In a run that stops when the connection is lost, so do all frames that were
    tried. -/
theorem Stage.run_tried {w : World} {frames : List Bytes} {past : List FileEvent}
    (h : Stage init size past w.send frames) (hok : SendOk w.send) {events : List FileEvent}
    (honly : NoSubmit w events) (hstops : StopsWhenLost w events) :
    SendConforms init size (past ++ events) (frames ++ (taskFrames w events).map Prod.fst) := by
  induction events generalizing w frames past with
  | nil =>
    rw [taskFrames, List.map_nil, List.append_nil, List.append_nil]
    exact h.conforms
  | cons e events ih =>
    obtain ⟨hsub, hrest⟩ := honly
    obtain ⟨hlost, hstops⟩ := hstops
    have hstep := (h.mono (List.subset_append_left past [e])).step hok (by simp) hsub
    rw [taskFrames, List.map_append]
    cases hst : fileStatus w e with
    | ok =>
      have hgo := ih (hstep.alive hst) (hok.move (sendMove_fileStep hok e)) hrest hstops
      rw [List.append_assoc] at hgo
      rw [← List.append_assoc]
      exact hgo
    | lost =>
      -- the loop has been left, and what is tried here is the last of it
      rw [taskFrames_resets _ (hlost hst), List.map_nil, List.append_nil]
      exact hstep.tried.mono (by simp)

/-- A task that has ended sends nothing any more. -/
theorem taskFrames_of_idle {w : World} {events : List FileEvent} (hzero : w.send = SendTask.zero)
    (honly : NoSubmit w events) : taskFrames w events = [] := by
  induction events generalizing w with
  | nil => rfl
  | cons e events ih =>
    obtain ⟨hsub, hrest⟩ := honly
    have hok : SendOk w.send := hzero ▸ .zero
    have hmove := sendMove_fileStep hok e
    rw [hzero] at hmove
    -- nothing but a submission moves a free slot
    have hnext : (fileStep w e).send = SendTask.zero ∧ sendFrames w e = [] := by
      generalize (fileStep w e).send = t', sendFrames w e = fs, fileStatus w e = st at *
      cases hmove with
      | keep => exact ⟨rfl, rfl⟩
      | signal _ _ he hs =>
        refine ⟨?_, rfl⟩
        cases hs with
        | keep => rfl
        | submit => exact he.elim
        | submitLost => rfl
        | tick => exact he.elim
        | assign _ _ _ _ hbusy => exact absurd hbusy SendTask.not_busy_zero
        | accept _ _ hbusy => exact absurd hbusy SendTask.not_busy_zero
        | clear => rfl
        | noSuchUser => rfl
        | transferState => rfl
        | reset => rfl
      | submit line io => exact absurd (hsub line io rfl) (by simp)
      | cancel _ _ _ hbusy => exact absurd hbusy SendTask.not_busy_zero
      | complete _ hbusy => exact absurd hbusy SendTask.not_busy_zero
      | chunks _ _ _ _ hbusy => exact absurd hbusy SendTask.not_busy_zero
    rw [taskFrames, hnext.2, ih hnext.1 hrest, List.append_nil]

theorem taskFrames_append (w : World) (before after : List FileEvent) :
    taskFrames w (before ++ after) =
      taskFrames w before ++ taskFrames (fileRun w before) after := by
  induction before generalizing w with
  | nil => rfl
  | cons e before ih =>
    rw [List.cons_append, taskFrames, taskFrames, ih, List.append_assoc]
    rfl

theorem NoSubmit.append_right {w : World} {before after : List FileEvent}
    (h : NoSubmit w (before ++ after)) : NoSubmit (fileRun w before) after := by
  induction before generalizing w with
  | nil => exact h
  | cons e before ih => exact ih h.2

/-- **Send protocol conformance.** Let a `/sendfile` submit a task in a reachable state, and let
    any events follow that submit no other one.  Of all frames the calls try, those of the send
    task (INIT, CHUNK, COMPLETE, and CANCEL unless the call cancels the receive task of that id) are
    the frames of one of the histories as far as they went out, and in a run that stops when the
    connection is lost so are all that were tried; once the task has ended there are no more. -/
theorem sendTask_conforms {w : World} (hw : Reachable w) (line : Bytes) (io : SendfileIo)
    (hsubmit : sendFrames w (.sendfile line io) ≠ []) (events : List FileEvent)
    (honly : NoSubmit (fileStep w (.sendfile line io)) events) :
    ∃ target filename,
      commandsParseSendfile line maxUsernameLen maxFilenameLen = some (target, filename) ∧
      SendConforms (initFrame target filename io.fsize.toNat) io.fsize.toNat events
        (wentOut (taskFrames w (.sendfile line io :: events))) ∧
      (StopsWhenLost w (.sendfile line io :: events) →
        SendConforms (initFrame target filename io.fsize.toNat) io.fsize.toNat events
          ((taskFrames w (.sendfile line io :: events)).map Prod.fst)) ∧
      ∀ before after, events = before ++ after →
        (fileRun w (.sendfile line io :: before)).send.busy = false →
          taskFrames w (.sendfile line io :: events) =
            taskFrames w (.sendfile line io :: before) := by
  have hok := hw.sendOk
  have hok' := hok.move (sendMove_fileStep hok (.sendfile line io))
  have hmove := sendMove_fileStep hok (.sendfile line io)
  have hend : ∀ before after, events = before ++ after →
      (fileRun w (.sendfile line io :: before)).send.busy = false →
        taskFrames w (.sendfile line io :: events) =
          taskFrames w (.sendfile line io :: before) := by
    rintro before after rfl hidle
    have hreach : Reachable (fileRun w (.sendfile line io :: before)) := hw.run _
    have hzero : (fileRun (fileStep w (.sendfile line io)) before).send = SendTask.zero :=
      hreach.sendOk.idle hidle
    rw [taskFrames, taskFrames_append, taskFrames_of_idle hzero honly.append_right,
      List.append_nil, ← taskFrames]
  generalize hw' : fileStep w (.sendfile line io) = w' at hmove honly hok'
  generalize ht : w'.send = t', hfs : sendFrames w (.sendfile line io) = fs,
    hst : fileStatus w (.sendfile line io) = st at hmove hsubmit hok'
  cases hmove with
  | keep => exact absurd rfl hsubmit
  | signal _ _ he => exact he.elim
  | submit _ _ target filename hparse hfree hsize =>
    refine ⟨target, filename, hparse, ?_, fun hstops => ?_, hend⟩
    all_goals rw [taskFrames, hfs, hw']
    · rw [wentOut_append]
      cases hsend : io.sendOk with
      | true =>
        have hstage : Stage (initFrame target filename io.fsize.toNat) io.fsize.toNat []
            w'.send [initFrame target filename io.fsize.toNat] := by
          rw [ht, hsend]
          exact .offered _ rfl (Or.inl rfl) rfl
        exact (hstage.run (ht ▸ hok') honly).conforms
      | false =>
        have hzero : w'.send = SendTask.zero := by rw [ht, hsend]; rfl
        rw [taskFrames_of_idle hzero honly]
        exact ⟨0, [], .nothing, .nil _ _, fun hne => absurd rfl hne⟩
    · rw [List.map_append]
      cases hsend : io.sendOk with
      | true =>
        have hstage : Stage (initFrame target filename io.fsize.toNat) io.fsize.toNat []
            w'.send [initFrame target filename io.fsize.toNat] := by
          rw [ht, hsend]
          exact .offered _ rfl (Or.inl rfl) rfl
        exact hstage.run_tried (ht ▸ hok') honly (hw' ▸ hstops.2)
      | false =>
        have hzero : w'.send = SendTask.zero := by rw [ht, hsend]; rfl
        rw [taskFrames_of_idle hzero honly]
        exact ⟨0, [], .sending, .nil _ _, fun hne => absurd rfl hne⟩

/-- The frames of a tick that goes well are those of the schedule. -/
theorem taskFrames_tick {c : Bytes} {tid k : Nat} {w : World} {io : TickIo}
    (h : OnSchedule c tid k w.send) (hlen : c.length * 100 < 2 ^ 64) (hio : io.Good c)
    (events : List FileEvent) :
    taskFrames w (.tick io :: events) = (tickPart tid c k).filterMap Effect.triedFrame ++
      taskFrames (fileStep w (.tick io)) events := by
  have hlog := (World.fileSendTick_good h hlen hio).2
  have hframes : eventFrames w (.tick io) = (tickPart tid c k).filterMap Effect.triedFrame := by
    refine eventFrames_eq ?_
    rw [World.framesTried, fileStep, hlog, List.filterMap_append]
    rfl
  rw [taskFrames, sendFrames_of_sends rfl, hframes]

/-- A file of two chunks, the second of one byte. -/
def twoChunks : Bytes := List.replicate 65501 65

theorem length_twoChunks : twoChunks.length = 65501 := List.length_replicate

theorem fsizeLong_twoChunks : (65501 : Int) < 2 ^ 63 := by decide

def twoChunksSubmit : FileEvent :=
  .sendfile (utf8 "/sendfile bob a") ⟨true, true, 65501, true, true, fsizeLong_twoChunks⟩

/-- Transfer 5 of that file behind the command: announced, accepted, sent, completed. -/
def twoChunksSent : List FileEvent :=
  [.announcement ((Announcement.waiting (utf8 "a") 65501 (utf8 "bob")).text 5) Io.ok,
    .frame msgFileAccept (utilsWriteU32Be 5) Io.ok, .tick (.ok twoChunks), .tick (.ok twoChunks)]

theorem chunkCount_twoChunks : chunkCount twoChunks = 2 := by
  rw [chunkCount, chunks, pieces, List.length_map, List.length_range, length_twoChunks]
  decide

theorem roundsFor_twoChunks : roundsFor twoChunks = 1 := by
  rw [roundsFor, chunkCount_twoChunks]
  decide

/-- The file is too short for a line with a percentage. -/
theorem pieceEffects_twoChunks (k : Nat) : pieceEffects 5 twoChunks k =
    [.send (chunkFrame 5 (piece fileChunkDataMax twoChunks k)) true] := by
  have hsent (j : Nat) : sentAfter twoChunks j / fileProgressInterval = 0 := by
    refine Nat.div_eq_of_lt ((min_le_right _ _).trans_lt ?_)
    rw [length_twoChunks]
    decide
  rw [pieceEffects, hsent, hsent, if_neg (not_not_intro rfl)]

/-- Both chunks in the first tick. -/
theorem tickPart_twoChunks :
    (tickPart 5 twoChunks 0).filterMap Effect.triedFrame =
      [(chunkFrame 5 (0, twoChunks.take 65500), true),
        (chunkFrame 5 (65500, twoChunks.drop 65500), true)] := by
  have hfirst : piece fileChunkDataMax twoChunks 0 = (0, twoChunks.take 65500) := by
    rw [piece, Nat.mul_zero, List.drop_zero, fileChunkDataMax]
  have hsecond : piece fileChunkDataMax twoChunks 1 = (65500, twoChunks.drop 65500) := by
    rw [piece, Nat.mul_one, fileChunkDataMax, List.take_of_length_le]
    rw [List.length_drop, length_twoChunks]
    decide
  rw [tickPart, roundsFor_twoChunks, chunkCount_twoChunks, if_pos Nat.one_pos]
  show ([0, 1].flatMap (pieceEffects 5 twoChunks)).filterMap Effect.triedFrame = _
  rw [List.flatMap_cons, List.flatMap_singleton, pieceEffects_twoChunks, pieceEffects_twoChunks,
    hfirst, hsecond]
  rfl

/-- What two ticks send from the start of the schedule on. -/
theorem taskFrames_twoChunks {w : World} (h : OnSchedule twoChunks 5 0 w.send) :
    taskFrames w [.tick (.ok twoChunks), .tick (.ok twoChunks)] =
      [(chunkFrame 5 (0, twoChunks.take 65500), true),
        (chunkFrame 5 (65500, twoChunks.drop 65500), true), (completeFrame 5, true)] := by
  have hlen : twoChunks.length * 100 < 2 ^ 64 := by rw [length_twoChunks]; decide
  have hgood := TickIo.ok_good twoChunks
  have hnext := (World.fileSendTick_good h hlen hgood).1
  rw [taskFrames_tick h hlen hgood, tickPart_twoChunks, fileStep, taskFrames_tick hnext hlen hgood,
    tickPart, roundsFor_twoChunks, if_neg (by decide), if_pos rfl]
  rfl

/-- The acceptance comes to a task at the start of its schedule. -/
theorem onSchedule_twoChunks : OnSchedule twoChunks 5 0
    (fileRun (World.init fun _ => none) (twoChunksSubmit :: twoChunksSent.take 2)).send := by
  have hreach :
      Reachable (fileRun (World.init fun _ => none) (twoChunksSubmit :: twoChunksSent.take 1)) :=
    (Reachable.init _).run _
  have hpending :
      (fileRun (World.init fun _ => none) (twoChunksSubmit :: twoChunksSent.take 1)).send =
        { SendTask.submitted (utf8 "bob") (utf8 "a") 65501 with tid := 5, state := .pending } := by
    decide +kernel
  have hactive : (fileRun (World.init fun _ => none)
      (twoChunksSubmit :: twoChunksSent.take 2)).send.state = .active := by
    decide +kernel
  have hstart := hreach.onSchedule (c := twoChunks)
    (e := .frame msgFileAccept (utilsWriteU32Be 5) Io.ok) (by rw [hpending])
    (by rw [hpending, length_twoChunks]; rfl) hactive
  rwa [hpending] at hstart

/-- The frames of that transfer are INIT, both chunks at their offsets, COMPLETE. -/
theorem sendTask_conforms_two_chunks :
    (∃ target filename, SendConforms (initFrame target filename 65501) 65501 twoChunksSent
      (wentOut (taskFrames (World.init fun _ => none) (twoChunksSubmit :: twoChunksSent)))) ∧
      wentOut (taskFrames (World.init fun _ => none) (twoChunksSubmit :: twoChunksSent)) =
        [initFrame (utf8 "bob") (utf8 "a") 65501, chunkFrame 5 (0, twoChunks.take 65500),
          chunkFrame 5 (65500, twoChunks.drop 65500), completeFrame 5] := by
  constructor
  · obtain ⟨target, filename, -, hconforms, -⟩ :=
      sendTask_conforms (Reachable.init fun _ => none) (utf8 "/sendfile bob a")
        ⟨true, true, 65501, true, true, fsizeLong_twoChunks⟩ (by decide +kernel) twoChunksSent (by
          refine ⟨?_, ?_, ?_, ?_, trivial⟩
          all_goals
            intro line io h
            exact absurd h (by simp))
    exact ⟨target, filename, hconforms⟩
  -- up to the acceptance only INIT goes out, behind it two ticks pass
  have hbefore : taskFrames (World.init fun _ => none) (twoChunksSubmit :: twoChunksSent.take 2) =
      [(initFrame (utf8 "bob") (utf8 "a") 65501, true)] := by
    decide +kernel
  have hsplit : twoChunksSubmit :: twoChunksSent = (twoChunksSubmit :: twoChunksSent.take 2) ++
      [.tick (.ok twoChunks), .tick (.ok twoChunks)] := rfl
  rw [hsplit, taskFrames_append, hbefore, taskFrames_twoChunks onSchedule_twoChunks]
  rfl

end TCPClient
