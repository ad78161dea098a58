import TCPClient.FileInvariant

namespace TCPClient

open Octets Cover

/-!
# The file of an accepted transfer

Whatever CHUNK frames arrive, the bitmap, the byte counter and the file of an open receive task
keep telling the same story: `FileOk` relates all three to the list of writes made since the
file was created, and `Reachable.filesOk` says that it holds in every reachable state.  Counting
then does the rest (`FileOk.writtenOnce`): writes on the grid of chunk offsets, each
offset used once and no write longer than a chunk, reach the announced size only when every
position was written exactly once.
-/

/-- The task's bitmap, counter and file agree with the writes made since the file was created. -/
structure FileOk (t : RecvTask) (content : Option Bytes) (ws : List Write) : Prop where
  bitmapLen : t.bitmapLen = fileChunkCount t.size fileChunkDataMax / 8 + 1
  bitmap : ∃ b, t.bitmap = some b ∧ b.length = t.bitmapLen ∧
    ∀ k, Marked b k ↔ ∃ w ∈ ws, w.1 / fileChunkDataMax = k
  aligned : ∀ w ∈ ws, fileChunkDataMax ∣ w.1
  short : ∀ w ∈ ws, w.2.length ≤ fileChunkDataMax
  inside : ∀ w ∈ ws, w.1 + w.2.length ≤ t.size
  once : (ws.map Prod.fst).Nodup
  received : t.received = (ws.map fun w => w.2.length).sum
  content : content = some (writeAll ws)

/-- `/accept` starts with an empty file and nothing marked. -/
theorem FileOk.opened {t : RecvTask} (hreceived : t.received = 0) (saveName path : Bytes) :
    FileOk (t.opened saveName path) (some []) [] where
  bitmapLen := rfl
  bitmap := by
    refine ⟨_, rfl, List.length_replicate, fun k => ?_⟩
    simp [not_marked_zero]
  aligned := by simp
  short := by simp
  inside := by simp
  once := by simp
  received := by simpa [RecvTask.opened] using hreceived
  content := by simp

/-- What the span check asks of a chunk, in terms of the writes made so far. -/
theorem FileOk.span_iff {t : RecvTask} {content : Option Bytes} {ws : List Write}
    (h : FileOk t content ws) (offset len : Nat) :
    fileRecvSpanCheck t.size (t.bitmap.getD []) t.bitmapLen offset len = true ↔
      fileChunkDataMax ∣ offset ∧ 0 < len ∧ len ≤ fileChunkDataMax ∧ offset + len ≤ t.size ∧
        ∀ w ∈ ws, w.1 ≠ offset := by
  obtain ⟨b, hb, hblen, hmarked⟩ := h.bitmap
  rw [hb, Option.getD_some, fileRecvSpanCheck_iff h.bitmapLen, hmarked]
  refine and_congr_right fun hdvd => and_congr_right fun _ => and_congr_right fun _ =>
    and_congr_right fun _ => ?_
  constructor
  · rintro hfree w hw rfl
    exact hfree ⟨w, hw, rfl⟩
  · rintro hfree ⟨w, hw, hk⟩
    -- two multiples of the chunk size with one quotient are equal
    refine hfree w hw ?_
    rw [← Nat.div_mul_cancel (h.aligned w hw), hk, Nat.div_mul_cancel hdvd]

/-- A chunk that passes the span check keeps the file in order. -/
theorem FileOk.written {t : RecvTask} {content : Option Bytes} {ws : List Write}
    (h : FileOk t content ws) {fh : FileHandle} {offset : Nat} {data : Bytes}
    (hspan : fileRecvSpanCheck t.size (t.bitmap.getD []) t.bitmapLen offset data.length) :
    FileOk (t.written fh offset data.length) (content.map fun c => writeAt c offset data)
      (ws ++ [(offset, data)]) := by
  obtain ⟨hdvd, hpos, hshort, hin, hfresh⟩ := (h.span_iff offset data.length).mp hspan
  have hlast : ∀ {P : Write → Prop}, (∀ w ∈ ws, P w) → P (offset, data) →
      ∀ w ∈ ws ++ [(offset, data)], P w := by
    intro P hws hd w hw
    rcases List.mem_append.mp hw with hw | hw
    · exact hws w hw
    · rw [List.mem_singleton.mp hw]
      exact hd
  constructor
  · exact h.bitmapLen
  · obtain ⟨b, hb, hblen, hmarked⟩ := h.bitmap
    have hbit : offset / fileChunkDataMax / 8 < t.bitmapLen := by
      rw [h.bitmapLen]
      exact chunk_div_eight_lt (by omega)
    refine ⟨fileRecvSpanMark b t.bitmapLen offset, ?_, ?_, fun k => ?_⟩
    · simp [RecvTask.written, hb]
    · rw [length_fileRecvSpanMark]
      exact hblen
    · rw [marked_fileRecvSpanMark hblen hdvd hbit, hmarked]
      simp only [List.mem_append, List.mem_singleton, or_and_right, exists_or, exists_eq_left,
        eq_comm]
  · exact hlast h.aligned hdvd
  · exact hlast h.short hshort
  · exact hlast h.inside hin
  · rw [List.map_append, List.nodup_append]
    refine ⟨h.once, by simp, ?_⟩
    simp only [List.map_cons, List.map_nil, List.mem_singleton, List.mem_map]
    rintro _ ⟨w, hw, rfl⟩ _ rfl
    exact hfresh w hw
  · rw [List.map_append, List.sum_append, ← h.received]
    simp [RecvTask.written]
  · rw [h.content, Option.map_some, writeAll_concat]

/-- The open tasks of a state and their files are in order. -/
def FilesOk (w : World) : Prop :=
  ∀ i fh, (w.recv i).fp = some fh →
    FileOk (w.recv i) (w.disk fh.path) (w.fileWrites fh.path)

/-- **Step lemma.** Every event keeps the files of open tasks in order. -/
theorem FilesOk.step {w w' : World} (h : FilesOk w) (hcoh : CoherentTable w.recv)
    (hs : FileStep w w') : FilesOk w' := by
  intro j fh' hj
  cases hs with
  | carried hc =>
    obtain ⟨htask, hdisk, hwrites⟩ := hc j fh' hj
    rw [htask, hdisk, hwrites]
    exact h j fh' (by rw [← htask, hj])
  | opened i saveName path hrecv hfree hdisk hwrites =>
    rw [hrecv] at hj ⊢
    by_cases hji : j = i
    · subst hji
      rw [Function.update_self] at hj ⊢
      obtain rfl : (⟨path, 0⟩ : FileHandle) = fh' := Option.some.inj hj
      rw [hdisk, hwrites]
      exact FileOk.opened (hcoh.pendingReceived j (hfree j)) saveName path
    · rw [Function.update_of_ne hji, hfree j] at hj
      exact absurd hj (by simp)
  | written i fh offset data hfp hspan hrecv hdisk hwrites =>
    rw [hrecv] at hj ⊢
    by_cases hji : j = i
    · subst hji
      rw [Function.update_self] at hj ⊢
      obtain rfl : { fh with pos := offset + data.length } = fh' := Option.some.inj hj
      rw [hdisk, hwrites]
      exact (h j fh hfp).written hspan
    · -- a second open file there is not
      rw [Function.update_of_ne hji] at hj
      exact absurd (hcoh.oneActive j i (by simp [hj]) (by simp [hfp])) hji

/-- **In every reachable state the files of open tasks are in order.** -/
theorem Reachable.filesOk {w : World} (h : Reachable w) : FilesOk w := by
  induction h with
  | init disk => exact fun i fh hi => absurd hi (by simp [World.init, RecvTask.zero])
  | step e hw ih =>
    exact ih.step hw.coherent.toCoherentTable
      ((fileStep_spec _ e).files hw.coherent.toCoherentTable)

/-! ### Counting -/

/-- Every position below `size` was written by exactly one of the writes, no other position by
    any, and the file they left is `size` bytes long. -/
def WrittenOnce (content : Option Bytes) (ws : List Write) (size : Nat) : Prop :=
  (∀ p, timesWritten ws p = if p < size then 1 else 0) ∧
    ∃ c, content = some c ∧ c.length = size

/-- The counter reaches the size only with a file that has no hole and no overlap. -/
theorem FileOk.writtenOnce {t : RecvTask} {content : Option Bytes} {ws : List Write}
    (h : FileOk t content ws) (hfull : t.received = t.size) :
    WrittenOnce content ws t.size := by
  have hdisjoint := pairwise_disjoint_of_aligned h.aligned h.short h.once
  have honce := covers_exactly_once h.inside hdisjoint (h.received.symm.trans hfull)
  refine ⟨honce, _, h.content, length_writeAll_of_covers h.inside fun p hp => ?_⟩
  apply exists_covers_of_timesWritten
  rw [honce p, if_pos hp]
  exact Nat.one_pos

/-- The counter never exceeds the size. -/
theorem FileOk.received_le {t : RecvTask} {content : Option Bytes} {ws : List Write}
    (h : FileOk t content ws) : t.received ≤ t.size := by
  rw [h.received]
  exact sum_length_le h.inside (pairwise_disjoint_of_aligned h.aligned h.short h.once)

/-! ### Completion -/

/-- The signals that tell the receiver that the sender is done. -/
inductive CompletionSignal (tid : Nat) (io : Io) : FileEvent → Prop where
  | frame (payload : Bytes) (h4 : payload.length = 4) (htid : utilsReadU32Be payload = tid) :
      CompletionSignal tid io (.frame msgFileComplete payload io)
  | announcement (text : Bytes) (hparse : fileParseAnnouncement text = some (.complete, tid)) :
      CompletionSignal tid io (.announcement text io)

/-- A completion signal completes the receive task, unless it is the announcement the client's
    own send task waits for. -/
theorem CompletionSignal.fileStep_eq {tid : Nat} {io : Io} {e : FileEvent}
    (he : CompletionSignal tid io e) (w : World) :
    fileStep w e = w.recvTaskComplete io tid ∨
      (w.send.busy = true ∧ w.send.tid = tid ∧ w.send.state = .waitComplete ∧
        fileStep w e = w.sendTaskClear) := by
  cases he with
  | frame payload h4 htid =>
    left
    rw [fileStep, World.fileFrame_control w io _ h4, htid]
    rfl
  | announcement text hparse =>
    rw [fileStep, World.fileHandleAnnouncement, hparse]
    dsimp only
    rw [World.announced]
    split_ifs with h
    · obtain ⟨hbusy, htid⟩ := World.sendTaskMatches_iff.mp h.1
      exact Or.inr ⟨hbusy, htid, h.2, rfl⟩
    · exact Or.inl rfl

namespace World

/-- Clearing an open task removes its file. -/
theorem disk_recvTaskClear_of_active {w : World} {io : Io} {i : Slot} {fh : FileHandle}
    (hcoh : CoherentTable w.recv) (hfp : (w.recv i).fp = some fh) (hio : io.FilesWork) :
    (w.recvTaskClear io i).disk fh.path = none := by
  obtain ⟨hname, hpath⟩ := hcoh.activePath i fh hfp
  simp [recvTaskClear, discardFile, hfp, hio.fclose, hname, hpath, fcloseWrite, remove,
    hio.remove, setDisk]

/-- With every file operation succeeding, the end of an open task keeps the file when all bytes
    were counted and removes it otherwise. -/
theorem disk_recvTaskFinish {w : World} {io : Io} {i : Slot} {fh : FileHandle}
    (hcoh : CoherentTable w.recv) (hfp : (w.recv i).fp = some fh) (hio : io.FilesWork) :
    (w.recvTaskFinish io i).disk fh.path =
      if (w.recv i).received = (w.recv i).size then w.disk fh.path else none := by
  unfold recvTaskFinish
  dsimp only
  split_ifs with hfull
  · -- the name was blanked, so nothing is removed
    simp [recvTaskClear, discardFile, hfp, hio.fclose, fcloseWrite]
  · exact disk_recvTaskClear_of_active (w := w.print _) hcoh hfp hio

theorem fileWrites_recvTaskFinish (w : World) (io : Io) (i : Slot) (path : Bytes) :
    (w.recvTaskFinish io i).fileWrites path = w.fileWrites path := by
  unfold recvTaskFinish
  dsimp only
  split_ifs <;> simp

/-- When completing an id closes the file of a slot, that slot is the one the id found. -/
theorem recvTaskComplete_of_closed {w : World} {io : Io} {tid : Nat} {i : Slot}
    (hfp : (w.recv i).fp.isSome = true)
    (hclosed : ((w.recvTaskComplete io tid).recv i).fp = none) :
    w.recvTaskComplete io tid = w.recvTaskFinish io i := by
  unfold recvTaskComplete at hclosed ⊢
  cases hfind : w.recvTaskFind tid with
  | none =>
    rw [hfind] at hclosed
    simp [hclosed] at hfp
  | some j =>
    rw [hfind] at hclosed
    by_cases hji : i = j
    · subst hji
      dsimp only
      rw [if_pos hfp]
    · -- the other slots keep their files
      have hkept : ∀ w' : World, w'.tasks = { w.tasks with
          recv := Function.update w.recv j RecvTask.zero } → (w'.recv i).fp = (w.recv i).fp := by
        intro w' ht
        simp [ht, hji]
      exfalso
      dsimp only at hclosed
      split_ifs at hclosed with hj
      · rw [hkept _ (tasks_recvTaskFinish w io j)] at hclosed
        simp [hclosed] at hfp
      · rw [hkept _ (tasks_recvTaskClear w io j)] at hclosed
        simp [hclosed] at hfp

end World

/-- **Receiver integrity.** Let a receive task be open in any reachable state, so after any
    CHUNK frames and any other events.  When its counter equals its size, and in particular when
    a completion signal ends it and its file is still there, every position of the file was
    written by exactly one accepted chunk, none at or beyond the size, and the file is as long
    as announced. -/
theorem received_file_written_once {w : World} (hw : Reachable w) {i : Slot} {fh : FileHandle}
    (hfp : (w.recv i).fp = some fh) :
    ((w.recv i).received = (w.recv i).size →
      WrittenOnce (w.disk fh.path) (w.fileWrites fh.path) (w.recv i).size) ∧
    ∀ (io : Io) (e : FileEvent), io.FilesWork →
      CompletionSignal (w.recv i).tid io e → ((fileStep w e).recv i).fp = none →
      ((fileStep w e).disk fh.path).isSome = true →
        WrittenOnce ((fileStep w e).disk fh.path) ((fileStep w e).fileWrites fh.path)
          (w.recv i).size := by
  have hfile := hw.filesOk i fh hfp
  refine ⟨hfile.writtenOnce, ?_⟩
  intro io e hio he hended hkept
  have hcoh := hw.coherent.toCoherentTable
  rcases he.fileStep_eq w with hstep | ⟨-, -, -, hstep⟩
  · rw [hstep] at hended hkept ⊢
    rw [World.recvTaskComplete_of_closed (by simp [hfp]) hended,
      World.disk_recvTaskFinish hcoh hfp hio] at *
    rw [World.fileWrites_recvTaskFinish]
    split_ifs at hkept ⊢ with hfull
    · exact hfile.writtenOnce hfull
    · exact absurd hkept (by simp)
  · -- the send task took the signal, so the receive task is still open
    rw [hstep] at hended
    simp [hfp] at hended

/-- A client that accepted transfer 7, a file of one byte, and got its chunk. -/
def oneByteReceived : World :=
  fileRun (World.init fun _ => none)
    [.announcement ((Announcement.incoming (utf8 "bob") (utf8 "a") 1).text 7) Io.ok,
      .frame msgFileInit (utf8 "bob" ++ 0 :: utf8 "a" ++ 0 :: utf8 "1" ++ [0]) Io.ok,
      .accept (utf8 "/accept 7") Io.ok,
      .frame msgFileChunk (utilsWriteU32Be 7 ++ utilsWriteU64Be 0 ++ [65]) Io.ok]

/-- The completion of transfer 7 keeps a file of one byte, written once. -/
theorem received_file_written_once_seven :
    WrittenOnce ((fileStep oneByteReceived (.frame msgFileComplete (utilsWriteU32Be 7) Io.ok)).disk
        (utf8 "downloads/a"))
      ((fileStep oneByteReceived (.frame msgFileComplete (utilsWriteU32Be 7) Io.ok)).fileWrites
        (utf8 "downloads/a")) 1 :=
  (received_file_written_once (Reachable.run (Reachable.init _) _)
    (show (oneByteReceived.recv 0).fp = some ⟨utf8 "downloads/a", 1⟩ by decide +kernel)).2 Io.ok _
    ⟨rfl, rfl, rfl, rfl⟩ (.frame (utilsWriteU32Be 7) (by decide +kernel) (by decide +kernel))
    (by decide +kernel) (by decide +kernel)

end TCPClient
