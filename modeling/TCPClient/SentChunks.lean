import TCPClient.FileInvariant

namespace TCPClient

open Octets Cover

/-!
# The frames of a sent file

What `file_send_tick` sends between the moment a task is accepted and the moment its state is
`DONE`.  The cursor of the file, the counter of sent bytes and the frames on the wire advance
together (`Sending`); when the run is over the frames are those of all pieces of the file, in
order (`tickFrames_eq`).
-/

/-! ### CHUNK frames -/

/-- `tid(4) offset(8) data`. -/
def chunkPayload (tid : Nat) (w : Write) : Bytes :=
  utilsWriteU32Be tid ++ utilsWriteU64Be w.1 ++ w.2

/-- The CHUNK frame of a piece of a file. -/
def chunkFrame (tid : Nat) (w : Write) : Bytes :=
  frameHeader msgFileChunk (chunkPayload tid w).length ++ chunkPayload tid w

/-- The pieces of a file that the sender cuts. -/
abbrev chunks (c : Bytes) : List Write := pieces fileChunkDataMax c

theorem fileChunkDataMax_pos : 0 < fileChunkDataMax := by decide

theorem length_chunkPayload (tid : Nat) (w : Write) :
    (chunkPayload tid w).length = 12 + w.2.length := by
  simp [chunkPayload]
  omega

theorem fits_of_length_le {tid : Nat} {w : Write} (h : w.2.length ≤ fileChunkDataMax) :
    (chunkPayload tid w).length < 2 ^ 16 := by
  rw [length_chunkPayload]
  unfold fileChunkDataMax at h
  omega

theorem protocolBuildChunk_eq {tid : Nat} {w : Write} (h : w.2.length ≤ fileChunkDataMax) :
    protocolBuildChunk tid w.1 w.2 (protoHeaderSize + 12 + fileChunkDataMax) =
      some (chunkFrame tid w) := by
  refine buildPayload_eq ⟨msgFileChunk, chunkPayload tid w, fits_of_length_le h⟩ ?_
  simp only [length_chunkPayload, protoHeaderSize]
  omega

theorem protocolParse_chunkFrame (tid : Nat) {w : Write} (h : w.2.length ≤ fileChunkDataMax) :
    protocolParse (chunkFrame tid w) =
      .item (5 + (chunkPayload tid w).length) (msgFileChunk, chunkPayload tid w) := by
  have hparse := protocolParse_encode ⟨msgFileChunk, chunkPayload tid w, fits_of_length_le h⟩ []
  rwa [List.append_nil] at hparse

/-! ### Frames and ticks of a run -/

/-- The frame of an effect, if one went out. -/
def Effect.sentFrame : Effect → Option Bytes
  | .send frame true => some frame
  | _ => none

namespace World

/-- The frames that went out. -/
def framesSent (w : World) : List Bytes := w.log.filterMap Effect.sentFrame

@[simp] theorem framesSent_emit (w : World) (e : Effect) :
    (w.emit e).framesSent = w.framesSent ++ e.sentFrame.toList := by
  simp only [framesSent, emit, List.filterMap_append]
  cases h : e.sentFrame <;> simp [h]

@[simp] theorem framesSent_setSend (w : World) (t : SendTask) :
    (w.setSend t).framesSent = w.framesSent := rfl

@[simp] theorem framesSent_showProgress (w : World) :
    w.showProgress.framesSent = w.framesSent := by
  unfold showProgress displayIncoming
  dsimp only
  split_ifs <;> simp [Effect.sentFrame]

@[simp] theorem framesSent_tickEnd (w : World) : w.tickEnd.framesSent = w.framesSent := by
  unfold tickEnd
  split_ifs <;> rfl

end World

/-- The frames the ticks of a run sent. -/
def tickFrames : World → List FileEvent → List Bytes
  | _, [] => []
  | w, e :: events =>
    (match e with
      | .tick _ => (fileStep w e).framesSent.drop w.framesSent.length
      | _ => []) ++ tickFrames (fileStep w e) events

/-- What one event of a run has to do with the file `c` being sent: a tick reads `c` as it is,
    every other event leaves the send task alone. -/
def SendsFile (c : Bytes) (w : World) : FileEvent → Prop
  | .tick io => ∀ pos len, io.fread pos len = (c.drop pos).take len
  | e => (fileStep w e).send = w.send

/-- A run in which only ticks act on the send task, and the file does not change. -/
def SendsFileRun (c : Bytes) : World → List FileEvent → Prop
  | _, [] => True
  | w, e :: events => SendsFile c w e ∧ SendsFileRun c (fileStep w e) events

/-- The send task has sent `k` pieces of `c`: cursor and counter stand behind them, and the
    state is `DONE` only when they are all. -/
structure Sending (c : Bytes) (tid k : Nat) (t : SendTask) : Prop where
  busy : t.busy = true
  tid : t.tid = tid
  size : t.size = c.length
  fp : ∃ path, t.fp = some ⟨path, t.sent⟩
  sent : t.sent = min (fileChunkDataMax * k) c.length
  within : fileChunkDataMax * k < c.length + fileChunkDataMax
  state : t.state = .active ∨ (t.state = .done ∧ t.sent = c.length)

/-- The task after `len` more bytes went out. -/
def SendTask.advanced (t : SendTask) (len : Nat) : SendTask :=
  { t with
    sent := t.sent + len
    fp := t.fp.map fun h => { h with pos := h.pos + len } }

/-- Behind `k` pieces and one more stand `k + 1` pieces. -/
theorem Sending.advanced {c : Bytes} {tid k : Nat} {t : SendTask} (hs : Sending c tid k t)
    (hactive : t.state = .active) (hmore : t.sent < t.size) :
    Sending c tid (k + 1) (t.advanced (piece fileChunkDataMax c k).2.length) := by
  have hdlen : (piece fileChunkDataMax c k).2.length =
      min fileChunkDataMax (c.length - fileChunkDataMax * k) := by simp [piece]
  obtain ⟨path, hfp⟩ := hs.fp
  have hsent := hs.sent
  rw [hsent, hs.size] at hmore
  refine ⟨hs.busy, hs.tid, hs.size, ⟨path, ?_⟩, ?_, ?_, Or.inl hactive⟩
  · simp [SendTask.advanced, hfp]
  · show t.sent + (piece fileChunkDataMax c k).2.length = _
    rw [hsent, hdlen, Nat.mul_succ]
    omega
  · rw [Nat.mul_succ]
    omega

/-- What ticks leave of a task that cannot become `DONE` any more. -/
def SendTask.Over (t : SendTask) : Prop := t.state = .none ∨ t.state = .waitComplete

namespace World

variable {c : Bytes} {tid k : Nat}

/-- The progress line touches the mark only. -/
theorem send_showProgress (w : World) :
    ∃ mark, w.showProgress.send = { w.send with nextProgressMark := mark } := by
  unfold showProgress
  dsimp only
  split_ifs
  · exact ⟨_, rfl⟩
  · exact ⟨w.send.nextProgressMark, rfl⟩

/-- While the task is active, a round of the loop reads the next piece and sends its frame. -/
theorem tickChunk_eq {w : World} (hs : Sending c tid k w.send) (hlen : c.length < 2 ^ 63)
    (hmore : w.send.sent < w.send.size) {io : TickIo}
    (hread : ∀ pos len, io.fread pos len = (c.drop pos).take len) (i : Nat) :
    w.tickChunk io i =
      if io.sendOk i then
        (((w.emit (.send (chunkFrame tid (piece fileChunkDataMax c k)) true)).setSend
          (w.send.advanced (piece fileChunkDataMax c k).2.length)).showProgress, none)
      else
        ((w.emit (.send (chunkFrame tid (piece fileChunkDataMax c k)) false)).sendTaskClear,
          some .lost) := by
  have hk : fileChunkDataMax * k < c.length := by
    rw [hs.sent, hs.size] at hmore
    omega
  have hsent : w.send.sent = fileChunkDataMax * k := by
    rw [hs.sent]
    omega
  obtain ⟨path, hfp⟩ := hs.fp
  set len := min fileChunkDataMax (c.length - fileChunkDataMax * k) with hlendef
  have hplan : fileChunkPlan w.send.size fileChunkDataMax (w.send.sent / fileChunkDataMax) =
      some (fileChunkDataMax * k, len) := by
    rw [hs.size, hsent]
    exact fileChunkPlan_of_dvd (by omega) hk (Dvd.intro k rfl)
  -- what `fread` delivers is the next piece
  have hdata : (io.fread w.send.sent len).take len = (piece fileChunkDataMax c k).2 := by
    rw [hread, hsent, List.take_take, min_self, piece, List.take_eq_take_iff, List.length_drop]
    omega
  have hdlen : (piece fileChunkDataMax c k).2.length = len := by
    simp [piece, hlendef]
  have hframe : protocolBuildChunk tid (fileChunkDataMax * k) (piece fileChunkDataMax c k).2
      (protoHeaderSize + 12 + fileChunkDataMax) =
        some (chunkFrame tid (piece fileChunkDataMax c k)) :=
    protocolBuildChunk_eq (w := piece fileChunkDataMax c k)
      (by rw [hdlen]; exact min_le_left _ _)
  unfold tickChunk
  rw [hplan]
  dsimp only
  rw [hfp]
  dsimp only
  rw [hdata, if_neg (not_not_intro hdlen), hs.tid, hframe, hdlen]
  -- only now does it matter whether the frame goes out
  cases io.sendOk i with
  | false => rw [if_neg (by simp)]; rfl
  | true => rw [if_pos rfl]; rfl

/-- A round of the loop sends the next piece, or the task is gone. -/
theorem tickChunk_sending {w : World} (hs : Sending c tid k w.send)
    (hactive : w.send.state = .active) (hlen : c.length < 2 ^ 63)
    (hmore : w.send.sent < w.send.size) {io : TickIo}
    (hread : ∀ pos len, io.fread pos len = (c.drop pos).take len) (i : Nat) :
    ((w.tickChunk io i).1.send = SendTask.zero ∧ (w.tickChunk io i).2 ≠ none) ∨
      ((w.tickChunk io i).2 = none ∧ (w.tickChunk io i).1.send.state = .active ∧
        Sending c tid (k + 1) (w.tickChunk io i).1.send ∧
        (w.tickChunk io i).1.framesSent =
          w.framesSent ++ [chunkFrame tid (piece fileChunkDataMax c k)]) := by
  rw [tickChunk_eq hs hlen hmore hread i]
  split_ifs
  · right
    have hnext := hs.advanced hactive hmore
    generalize hv : (w.emit (.send (chunkFrame tid (piece fileChunkDataMax c k)) true)).setSend
      (w.send.advanced (piece fileChunkDataMax c k).2.length) = v
    have hsend : v.send = w.send.advanced (piece fileChunkDataMax c k).2.length := by
      rw [← hv]
      rfl
    have hframes : v.framesSent =
        w.framesSent ++ [chunkFrame tid (piece fileChunkDataMax c k)] := by
      rw [← hv]
      simp [Effect.sentFrame]
    obtain ⟨mark, hmark⟩ := v.send_showProgress
    rw [hmark, hsend, framesSent_showProgress]
    exact ⟨rfl, hactive,
      ⟨hnext.busy, hnext.tid, hnext.size, hnext.fp, hnext.sent, hnext.within, hnext.state⟩,
      hframes⟩
  · exact Or.inl ⟨by simp, by simp⟩

/-- At the end of a tick the state is `DONE` exactly when all pieces are sent. -/
theorem tickEnd_sending {w : World} (hs : Sending c tid k w.send) :
    Sending c tid k w.tickEnd.send := by
  have hle : w.send.sent ≤ c.length := by
    rw [hs.sent]
    exact min_le_right _ _
  unfold tickEnd
  split_ifs with hall
  · refine ⟨hs.busy, hs.tid, hs.size, hs.fp, hs.sent, hs.within, Or.inr ⟨rfl, ?_⟩⟩
    show w.send.sent = c.length
    rw [hs.size] at hall
    omega
  · exact hs

/-- The loop sends some more pieces in order, or the task is gone. -/
theorem tickLoop_sending {io : TickIo}
    (hread : ∀ pos len, io.fread pos len = (c.drop pos).take len) (hlen : c.length < 2 ^ 63)
    (fuel i k : Nat) (w : World) (hs : Sending c tid k w.send)
    (hactive : w.send.state = .active) :
    (tickLoop io fuel i w).1.send = SendTask.zero ∨
      ∃ n, Sending c tid (k + n) (tickLoop io fuel i w).1.send ∧
        (tickLoop io fuel i w).1.framesSent = w.framesSent ++
          (List.range' k n).map fun j => chunkFrame tid (piece fileChunkDataMax c j) := by
  induction fuel generalizing i k w with
  | zero => exact Or.inr ⟨0, tickEnd_sending hs, by simp [tickLoop]⟩
  | succ fuel ih =>
    rw [tickLoop]
    split_ifs with hmore
    · have hround := tickChunk_sending hs hactive hlen hmore hread i
      generalize w.tickChunk io i = res at hround ⊢
      obtain ⟨w1, early⟩ := res
      rcases hround with ⟨hzero, hsome⟩ | ⟨hnone, hactive', hs', hframes⟩
      · cases early with
        | none => exact absurd rfl hsome
        | some status => exact Or.inl hzero
      · cases early with
        | some status => exact absurd hnone (by simp)
        | none =>
          refine (ih (i + 1) (k + 1) w1 hs' hactive').imp_right ?_
          rintro ⟨n, hsn, hfn⟩
          refine ⟨n + 1, ?_, ?_⟩
          · rw [show k + (n + 1) = k + 1 + n by omega]
            exact hsn
          · dsimp only at hframes hfn ⊢
            rw [hfn, hframes, List.range'_succ, List.map_cons, List.append_assoc]
            rfl
    · exact Or.inr ⟨0, tickEnd_sending hs, by simp⟩

/-- **Tick specification.** A tick sends some more pieces in order; or the task is over, and
    then it was before or is now. -/
theorem fileSendTick_sending {w : World} (hs : Sending c tid k w.send) (hlen : c.length < 2 ^ 63)
    {io : TickIo} (hread : ∀ pos len, io.fread pos len = (c.drop pos).take len) :
    (w.fileSendTick io).1.send.Over ∨
      ∃ n, Sending c tid (k + n) (w.fileSendTick io).1.send ∧
        (w.fileSendTick io).1.framesSent = w.framesSent ++
          (List.range' k n).map fun j => chunkFrame tid (piece fileChunkDataMax c j) := by
  have hnidle : ¬ (w.send.state ≠ .active ∧ w.send.state ≠ .done) := by
    rintro ⟨h1, h2⟩
    rcases hs.state with h | h
    · exact h1 h
    · exact h2 h.1
  unfold fileSendTick
  rw [if_neg (not_not_intro hs.busy), if_neg hnidle]
  by_cases hdone : w.send.state = .done
  · rw [if_pos hdone, sendTid_eq]
    cases io.sendOk 0 with
    | false => exact Or.inr ⟨0, hs, by simp [Effect.sentFrame]⟩
    | true => exact Or.inl (Or.inr rfl)
  · have hactive : w.send.state = .active := hs.state.resolve_right fun h => hdone h.1
    rw [if_neg hdone]
    refine (tickLoop_sending hread hlen fileChunksPerRound 0 k w hs hactive).imp_left ?_
    intro hzero
    rw [hzero]
    exact Or.inl rfl

end World

/-! ### The whole run -/

/-- A task that is over stays over. -/
theorem SendTask.Over.run {c : Bytes} {events : List FileEvent} {w : World}
    (h : w.send.Over) (hrun : SendsFileRun c w events) : (fileRun w events).send.Over := by
  induction events generalizing w with
  | nil => exact h
  | cons e events ih =>
    obtain ⟨he, hrest⟩ := hrun
    refine ih ?_ hrest
    cases e with
    | tick io =>
      -- the tick returns at once
      have hsame : (w.fileSendTick io).1 = w := by
        have hidle : w.send.state ≠ .active ∧ w.send.state ≠ .done := by
          rcases h with h | h <;> rw [h] <;> decide
        unfold World.fileSendTick
        rw [if_pos hidle]
        split_ifs <;> rfl
      rw [fileStep, hsame]
      exact h
    | _ => exact he ▸ h

/-- **Run lemma.** The ticks of a run send some more pieces in order, or the task is over. -/
theorem tickFrames_sending {c : Bytes} {tid : Nat} (hlen : c.length < 2 ^ 63)
    {events : List FileEvent} {k : Nat} {w : World} (hs : Sending c tid k w.send)
    (hrun : SendsFileRun c w events) :
    (fileRun w events).send.Over ∨
      ∃ n, Sending c tid (k + n) (fileRun w events).send ∧
        tickFrames w events =
          (List.range' k n).map fun j => chunkFrame tid (piece fileChunkDataMax c j) := by
  induction events generalizing k w with
  | nil => exact Or.inr ⟨0, hs, rfl⟩
  | cons e events ih =>
    obtain ⟨he, hrest⟩ := hrun
    cases e with
    | tick io =>
      rcases World.fileSendTick_sending hs hlen he with hover | ⟨n, hsn, hfn⟩
      · exact Or.inl (SendTask.Over.run (w := fileStep w (.tick io)) hover hrest)
      · refine (ih (w := fileStep w (.tick io)) hsn hrest).imp_right ?_
        rintro ⟨m, hsm, hfm⟩
        refine ⟨n + m, by rw [← Nat.add_assoc]; exact hsm, ?_⟩
        rw [tickFrames, hfm, fileStep, hfn, List.drop_left, ← List.map_append,
          List.range'_append_1]
    | _ =>
      refine (ih (w := fileStep w _) (he ▸ hs) hrest).imp_right ?_
      rintro ⟨m, hsm, hfm⟩
      exact ⟨m, hsm, hfm⟩

/-- **The frames of a run from `ACTIVE` to `DONE`** are those of all pieces of the file, in
    order. -/
theorem tickFrames_eq {c : Bytes} (hlen : c.length < 2 ^ 63) {w : World} {tid : Nat}
    (hs : Sending c tid 0 w.send) {events : List FileEvent} (hrun : SendsFileRun c w events)
    (hdone : (fileRun w events).send.state = .done) :
    tickFrames w events = (chunks c).map (chunkFrame tid) := by
  rcases tickFrames_sending hlen hs hrun with hover | ⟨n, hsn, hfn⟩
  · rcases hover with h | h <;> rw [hdone] at h <;> exact absurd h (by decide)
  · -- `DONE` means that the last piece is sent, and no piece is sent twice
    have hall : (fileRun w events).send.sent = c.length := by
      rcases hsn.state with h | h
      · rw [hdone] at h
        exact absurd h (by decide)
      · exact h.2
    -- so `n` is the number of chunks, rounded up
    have hn : (c.length + (fileChunkDataMax - 1)) / fileChunkDataMax = n := by
      have hsent := hsn.sent
      have hwithin := hsn.within
      rw [hall] at hsent
      unfold fileChunkDataMax at hsent hwithin ⊢
      omega
    rw [hfn, chunks, pieces, hn, ← List.range_eq_range', List.map_map]
    rfl

end TCPClient
