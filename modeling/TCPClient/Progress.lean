import TCPClient.Transfer

namespace TCPClient

open Octets Cover

/-!
# How a file is sent, tick by tick

A tick sends two pieces, and the tick after the one with the last piece sends COMPLETE: the server
gets a poll round to take in the last piece.  `send_schedule` says where a transfer stands after any
number of ticks, and all that they put out: the frames and, at every full mebibyte, a line with the
percentage.  `FileEvent.SparesSend` says which other calls may come between.
-/

/-! ### Marks -/

/-- The mark that the counter `x` has not reached. -/
def nextMark (interval x : Nat) : Nat := interval * (x / interval + 1)

/-- A counter passes its mark exactly when the number of full intervals grows. -/
theorem nextMark_le_iff {interval x y : Nat} (hpos : 0 < interval) (hle : x ≤ y) :
    nextMark interval x ≤ y ↔ y / interval ≠ x / interval := by
  unfold nextMark
  rw [Nat.mul_comm, ← Nat.le_div_iff_mul_le hpos]
  have hmono : x / interval ≤ y / interval := Nat.div_le_div_right hle
  omega

/-- A counter that moves by one interval at most passes one mark at most. -/
theorem nextMark_add {interval x y : Nat} (hpos : 0 < interval) (hle : x ≤ y)
    (hstep : y ≤ x + interval) :
    nextMark interval y =
      if y / interval ≠ x / interval then nextMark interval x + interval
      else nextMark interval x := by
  have hmono : x / interval ≤ y / interval := Nat.div_le_div_right hle
  have hbound : y / interval ≤ x / interval + 1 := by
    rw [← Nat.add_div_right x hpos]
    exact Nat.div_le_div_right hstep
  unfold nextMark
  split_ifs with hne
  · rw [show y / interval = x / interval + 1 by omega, Nat.mul_succ interval (x / interval + 1)]
  · rw [not_not.mp hne]

/-! ### What is put out for a piece -/

/-- The counter behind the first `k` pieces. -/
def sentAfter (c : Bytes) (k : Nat) : Nat := min (fileChunkDataMax * k) c.length

/-- The line of `file_send_tick`, with the percentage rounded down. -/
def progressLine (tid sent size : Nat) : Bytes :=
  utf8 "发送中 #" ++ (decimal tid ++ (utf8 ": " ++ (decimal sent ++ (utf8 "/" ++ (decimal size ++
    (utf8 " 字节 (" ++ (decimal (sent * 100 / size) ++ utf8 "%)")))))))

/-- Piece `k` with the line behind it, if it fills a mebibyte. -/
def pieceEffects (tid : Nat) (c : Bytes) (k : Nat) : List Effect :=
  .send (chunkFrame tid (piece fileChunkDataMax c k)) true ::
    if sentAfter c (k + 1) / fileProgressInterval ≠ sentAfter c k / fileProgressInterval then
      [.incoming (progressLine tid (sentAfter c (k + 1)) c.length)]
    else []

/-- A tick that reads the file as it is, and whose frames go out. -/
structure TickIo.Good (c : Bytes) (io : TickIo) : Prop where
  fread : ∀ pos len, io.fread pos len = (c.drop pos).take len
  sendOk : ∀ i, io.sendOk i = true

/-- The task has sent `k` pieces and is not done, and its mark is ahead. -/
structure Underway (c : Bytes) (tid k : Nat) (t : SendTask) : Prop extends Sending c tid k t where
  active : t.state = .active
  mark : t.nextProgressMark = nextMark fileProgressInterval t.sent

namespace World

variable {c : Bytes} {tid k : Nat} {w : World} {io : TickIo}

/-- The progress line, while the counter moves from `x` by one interval at most. -/
theorem showProgress_eq {x : Nat}
    (hmark : w.send.nextProgressMark = nextMark fileProgressInterval x)
    (hle : x ≤ w.send.sent) (hstep : w.send.sent ≤ x + fileProgressInterval)
    (hsize : w.send.sent ≤ w.send.size) (hlen : w.send.size * 100 < 2 ^ 64) :
    w.showProgress.send =
        { w.send with nextProgressMark := nextMark fileProgressInterval w.send.sent } ∧
      w.showProgress.log = w.log ++
        if w.send.sent / fileProgressInterval ≠ x / fileProgressInterval then
          [.incoming (progressLine w.send.tid w.send.sent w.send.size)]
        else [] := by
  have hpos : 0 < fileProgressInterval := by decide
  have hnext := nextMark_add hpos hle hstep
  have hpassed : w.send.sent ≥ w.send.nextProgressMark ↔
      w.send.sent / fileProgressInterval ≠ x / fileProgressInterval := by
    rw [hmark]
    exact nextMark_le_iff hpos hle
  have hpct : (w.send.sent * 100 % 2 ^ 64 / w.send.size) % 2 ^ 32 =
      w.send.sent * 100 / w.send.size := by
    rw [Nat.mod_eq_of_lt (show w.send.sent * 100 < 2 ^ 64 by omega)]
    have hle : w.send.sent * 100 / w.send.size ≤ 100 := Nat.div_le_of_le_mul (by omega)
    exact Nat.mod_eq_of_lt (by omega)
  unfold showProgress
  by_cases hgrown : w.send.sent / fileProgressInterval ≠ x / fileProgressInterval
  · rw [if_pos hgrown] at hnext ⊢
    rw [if_pos (hpassed.mpr hgrown), hpct, hnext, ← hmark]
    exact ⟨rfl, rfl⟩
  · rw [if_neg hgrown] at hnext ⊢
    rw [if_neg (fun h => hgrown (hpassed.mp h)), hnext, ← hmark, List.append_nil]
    exact ⟨rfl, rfl⟩

theorem sentAfter_succ_le (c : Bytes) (k : Nat) :
    sentAfter c k ≤ sentAfter c (k + 1) ∧
      sentAfter c (k + 1) ≤ sentAfter c k + fileProgressInterval := by
  unfold sentAfter fileProgressInterval fileChunkDataMax
  omega

/-- **One piece.** -/
theorem tickChunk_good (h : Underway c tid k w.send) (hlen : c.length * 100 < 2 ^ 64)
    (hmore : w.send.sent < w.send.size) (hio : io.Good c) (i : Nat) :
    (w.tickChunk io i).2 = none ∧ Underway c tid (k + 1) (w.tickChunk io i).1.send ∧
      (w.tickChunk io i).1.log = w.log ++ pieceEffects tid c k := by
  have hsending := h.toSending.advanced h.active hmore
  rw [tickChunk_eq h.toSending (by omega) hmore hio.fread, if_pos (hio.sendOk i)]
  have hmark : (w.send.advanced (piece fileChunkDataMax c k).2.length).nextProgressMark =
      nextMark fileProgressInterval (sentAfter c k) := by
    rw [sentAfter, ← h.sent]
    exact h.mark
  -- the world behind the frame
  generalize hv : (w.emit (.send (chunkFrame tid (piece fileChunkDataMax c k)) true)).setSend
    (w.send.advanced (piece fileChunkDataMax c k).2.length) = v
  have hsend : v.send = w.send.advanced (piece fileChunkDataMax c k).2.length := by
    rw [← hv]
    rfl
  have hlog : v.log = w.log ++ [.send (chunkFrame tid (piece fileChunkDataMax c k)) true] := by
    rw [← hv]
    rfl
  rw [← hsend] at hsending hmark
  have hsent : v.send.sent = sentAfter c (k + 1) := hsending.sent
  obtain ⟨hle, hstep⟩ := sentAfter_succ_le c k
  rw [← hsent] at hle hstep
  obtain ⟨hsend', hlog'⟩ := showProgress_eq hmark hle hstep
    (by rw [hsent, hsending.size]; exact min_le_right _ _) (by rw [hsending.size]; exact hlen)
  refine ⟨rfl, ⟨?_, ?_, ?_⟩, ?_⟩
  · rw [hsend']
    exact ⟨hsending.busy, hsending.tid, hsending.size, hsending.fp, hsending.sent,
      hsending.within, hsending.state⟩
  · rw [hsend', hsend]
    exact h.active
  · rw [hsend']
  · rw [hlog', hlog, hsent, hsending.tid, hsending.size, List.append_assoc]
    rfl

end World

/-! ### Ticks -/

/-- The number of pieces. -/
def chunkCount (c : Bytes) : Nat := (chunks c).length

/-- The number of ticks that send pieces. -/
def roundsFor (c : Bytes) : Nat :=
  (chunkCount c + (fileChunksPerRound - 1)) / fileChunksPerRound

/-- What tick `k` puts out. -/
def tickPart (tid : Nat) (c : Bytes) (k : Nat) : List Effect :=
  if k < roundsFor c then
    (List.range' (fileChunksPerRound * k)
      (min fileChunksPerRound (chunkCount c - fileChunksPerRound * k))).flatMap (pieceEffects tid c)
  else if k = roundsFor c then [.send (tidFrame msgFileComplete tid).encode true]
  else []

/-- What the first `k` ticks put out: pieces in order, and COMPLETE when a tick has passed behind
    the last of them. -/
def schedule (tid : Nat) (c : Bytes) (k : Nat) : List Effect :=
  (List.range (min (fileChunksPerRound * k) (chunkCount c))).flatMap (pieceEffects tid c) ++
    if roundsFor c < k then [.send (tidFrame msgFileComplete tid).encode true] else []

@[simp] theorem schedule_zero (tid : Nat) (c : Bytes) : schedule tid c 0 = [] := by
  simp [schedule]

/-- The state behind `k` ticks. -/
def scheduledState (c : Bytes) (k : Nat) : SendState :=
  if k < roundsFor c then .active else if k = roundsFor c then .done else .waitComplete

theorem lt_chunkCount_iff (c : Bytes) (k : Nat) :
    fileChunkDataMax * k < c.length ↔ k < chunkCount c := by
  unfold chunkCount chunks pieces fileChunkDataMax
  rw [List.length_map, List.length_range]
  omega

theorem lt_roundsFor_iff (c : Bytes) (k : Nat) :
    fileChunksPerRound * k < chunkCount c ↔ k < roundsFor c := by
  unfold roundsFor fileChunksPerRound
  omega

theorem schedule_succ (tid : Nat) (c : Bytes) (k : Nat) :
    schedule tid c (k + 1) = schedule tid c k ++ tickPart tid c k := by
  have hround := lt_roundsFor_iff c k
  unfold schedule tickPart
  by_cases hk : k < roundsFor c
  · -- the pieces go on where they stopped
    have hnew : min (fileChunksPerRound * (k + 1)) (chunkCount c) = fileChunksPerRound * k +
        min fileChunksPerRound (chunkCount c - fileChunksPerRound * k) := by
      have hmore := hround.mpr hk
      unfold fileChunksPerRound at hmore ⊢
      omega
    have hrange (a b : Nat) : List.range (a + b) = List.range a ++ List.range' a b := by
      rw [List.range_eq_range', List.range_eq_range', ← List.range'_append_1, Nat.zero_add]
    rw [if_neg (by omega), if_neg (by omega), if_pos hk, hnew, min_eq_left (hround.mpr hk).le,
      hrange, List.flatMap_append, List.append_nil, List.append_nil]
  · have hall : chunkCount c ≤ fileChunksPerRound * k := by
      have := mt hround.mp hk
      omega
    have hnext : chunkCount c ≤ fileChunksPerRound * (k + 1) := by
      rw [Nat.mul_succ]
      omega
    rw [min_eq_right hall, min_eq_right hnext, if_pos (by omega), if_neg hk]
    by_cases heq : k = roundsFor c
    · rw [if_neg (by omega), if_pos heq, List.append_nil]
    · rw [if_pos (by omega), if_neg heq, List.append_nil]

/-- The task behind `k` ticks. -/
inductive OnSchedule (c : Bytes) (tid k : Nat) (t : SendTask) : Prop where
  | underway (hk : k < roundsFor c) (h : Underway c tid (fileChunksPerRound * k) t)
  | done (hk : k = roundsFor c) (h : Sending c tid (chunkCount c) t) (hstate : t.state = .done)
  | finished (hk : roundsFor c < k) (hbusy : t.busy = true) (htid : t.tid = tid)
      (hsent : t.sent = c.length) (hstate : t.state = .waitComplete)

theorem OnSchedule.state {c : Bytes} {tid k : Nat} {t : SendTask} (h : OnSchedule c tid k t) :
    t.state = scheduledState c k := by
  unfold scheduledState
  cases h with
  | underway hk h => rw [if_pos hk, h.active]
  | done hk _ hstate => rw [if_neg (by omega), if_pos hk, hstate]
  | finished hk _ _ _ hstate => rw [if_neg (by omega), if_neg (by omega), hstate]

theorem sentAfter_of_le {c : Bytes} {k : Nat} (h : chunkCount c ≤ k) :
    sentAfter c k = c.length := by
  have := mt (lt_chunkCount_iff c k).mp (by omega)
  unfold sentAfter
  omega

theorem OnSchedule.sent {c : Bytes} {tid k : Nat} {t : SendTask} (h : OnSchedule c tid k t) :
    t.sent = sentAfter c (fileChunksPerRound * k) := by
  have hall (hk : roundsFor c ≤ k) : chunkCount c ≤ fileChunksPerRound * k := by
    have := mt (lt_roundsFor_iff c k).mp (by omega)
    omega
  cases h with
  | underway hk h => exact h.sent
  | done hk h =>
    rw [sentAfter_of_le (hall hk.ge), h.sent]
    exact sentAfter_of_le le_rfl
  | finished hk _ _ hsent =>
    rw [sentAfter_of_le (hall hk.le)]
    exact hsent

/-- The task is under way: it is the one with the id, and the recipient has accepted it. -/
theorem OnSchedule.accepted {c : Bytes} {tid k : Nat} {t : SendTask} (h : OnSchedule c tid k t) :
    t.busy = true ∧ t.tid = tid ∧ t.state ≠ .pendingTid ∧ t.state ≠ .pending := by
  cases h with
  | underway _ h => exact ⟨h.busy, h.tid, by simp [h.active], by simp [h.active]⟩
  | done _ h hstate => exact ⟨h.busy, h.tid, by simp [hstate], by simp [hstate]⟩
  | finished _ hbusy htid _ hstate => exact ⟨hbusy, htid, by simp [hstate], by simp [hstate]⟩

namespace World

variable {c : Bytes} {tid k : Nat} {w : World} {io : TickIo}

/-- Whether there is a piece left. -/
theorem sent_lt_iff (h : Sending c tid k w.send) :
    w.send.sent < w.send.size ↔ k < chunkCount c := by
  rw [h.sent, h.size, ← lt_chunkCount_iff]
  omega

/-- Behind the last piece the task is done. -/
theorem tickEnd_good (h : Underway c tid (chunkCount c) w.send) :
    w.tickEnd.log = w.log ∧ Sending c tid (chunkCount c) w.tickEnd.send ∧
      w.tickEnd.send.state = .done := by
  have hall : w.send.sent ≥ w.send.size := by
    have := mt (sent_lt_iff h.toSending).mp (by omega)
    omega
  refine ⟨?_, tickEnd_sending h.toSending, ?_⟩ <;> rw [tickEnd, if_pos hall] <;> rfl

/-- Two pieces, or the last one. -/
theorem tickLoop_good (hlen : c.length * 100 < 2 ^ 64) (hio : io.Good c) (fuel i k : Nat)
    (w : World) (h : Underway c tid k w.send) (hk : k ≤ chunkCount c) :
    (tickLoop io fuel i w).1.log = w.log ++
        (List.range' k (min fuel (chunkCount c - k))).flatMap (pieceEffects tid c) ∧
      (k + fuel < chunkCount c → Underway c tid (k + fuel) (tickLoop io fuel i w).1.send) ∧
      (chunkCount c ≤ k + fuel → Sending c tid (chunkCount c) (tickLoop io fuel i w).1.send ∧
        (tickLoop io fuel i w).1.send.state = .done) := by
  induction fuel generalizing i k w with
  | zero =>
    rw [tickLoop, Nat.zero_min, List.range'_zero, List.flatMap_nil, List.append_nil]
    rcases hk.lt_or_eq with hlt | rfl
    · have hend : w.tickEnd = w := by
        have hmore := (sent_lt_iff h.toSending).mpr hlt
        rw [tickEnd, if_neg (by omega)]
      rw [hend]
      exact ⟨rfl, fun _ => h, fun hle => absurd hle (by omega)⟩
    · obtain ⟨hlog, hsending, hdone⟩ := tickEnd_good h
      exact ⟨hlog, fun hlt => absurd hlt (by omega), fun _ => ⟨hsending, hdone⟩⟩
  | succ fuel ih =>
    rw [tickLoop]
    rcases hk.lt_or_eq with hlt | rfl
    · have hmore := (sent_lt_iff h.toSending).mpr hlt
      obtain ⟨hnone, hnext, hlog⟩ := tickChunk_good h hlen hmore hio i
      rw [if_pos hmore]
      generalize w.tickChunk io i = res at hnone hnext hlog
      obtain ⟨w₁, early⟩ := res
      obtain rfl : early = none := hnone
      obtain ⟨hlog', hactive, hdone⟩ := ih (i + 1) (k + 1) w₁ hnext (by omega)
      have hcount : min (fuel + 1) (chunkCount c - k) =
          min fuel (chunkCount c - (k + 1)) + 1 := by omega
      have hadd : k + (fuel + 1) = k + 1 + fuel := by omega
      rw [hcount, List.range'_succ, List.flatMap_cons, ← List.append_assoc, ← hlog, hadd]
      exact ⟨hlog', hactive, hdone⟩
    · have hall := mt (sent_lt_iff h.toSending).mp (by omega)
      obtain ⟨hlog, hsending, hdone⟩ := tickEnd_good h
      rw [if_neg hall, Nat.sub_self, Nat.min_zero, List.range'_zero, List.flatMap_nil,
        List.append_nil]
      exact ⟨hlog, fun hlt => absurd hlt (by omega), fun _ => ⟨hsending, hdone⟩⟩

/-- **Step lemma.** -/
theorem fileSendTick_good (h : OnSchedule c tid k w.send) (hlen : c.length * 100 < 2 ^ 64)
    (hio : io.Good c) : OnSchedule c tid (k + 1) (w.fileSendTick io).1.send ∧
      (w.fileSendTick io).1.log = w.log ++ tickPart tid c k := by
  unfold fileSendTick tickPart
  cases h with
  | underway hk h =>
    have hmore := (lt_roundsFor_iff c k).mpr hk
    have hnext := lt_roundsFor_iff c (k + 1)
    rw [if_neg (by simp [h.busy]), if_neg (by simp [h.active]), if_neg (by simp [h.active]),
      if_pos hk]
    obtain ⟨hlog, hactive, hdone⟩ :=
      tickLoop_good hlen hio fileChunksPerRound 0 _ w h (by omega)
    refine ⟨?_, hlog⟩
    rw [Nat.mul_succ] at hnext
    by_cases hlast : k + 1 < roundsFor c
    · refine .underway hlast ?_
      rw [Nat.mul_succ]
      exact hactive (hnext.mpr hlast)
    · obtain ⟨hsending, hstate⟩ := hdone (by have := mt hnext.mp hlast; omega)
      exact .done (by omega) hsending hstate
  | done hk h hstate =>
    have hsent : w.send.sent = c.length := by
      have hall := mt (sent_lt_iff h).mp (by omega)
      rw [h.size] at hall
      have hle : w.send.sent ≤ c.length := by
        rw [h.sent]
        exact min_le_right _ _
      omega
    rw [if_neg (by simp [h.busy]), if_neg (by simp [hstate]), if_pos hstate, sendTid_eq,
      hio.sendOk, if_neg (by omega), if_pos hk, h.tid]
    exact ⟨.finished (by omega) h.busy h.tid hsent rfl, rfl⟩
  | finished hk hbusy htid hsent hstate =>
    have hidle : w.send.state ≠ .active ∧ w.send.state ≠ .done := by simp [hstate]
    rw [if_neg (show ¬ k < roundsFor c by omega), if_neg (show ¬ k = roundsFor c by omega),
      List.append_nil, if_pos hidle]
    split_ifs
    exact ⟨.finished (by omega) hbusy htid hsent hstate, rfl⟩

end World

/-! ### Calls between the ticks -/

/-- The call does not end the send task under way with the id `tid`: it does not reject, cancel or
    confirm the transfer, and it is not one of the two that end every send task.  A `/cancel` whose
    frame does not go out is one that ends nothing. -/
def FileEvent.SparesSend (tid : Nat) : FileEvent → Prop
  | .error code _ => code ≠ errTransferState
  | .tick _ | .reset _ => False
  | e => e.addressee = some tid → e.clearsSend = false ∧ e.confirmsSend = false

/-- Such a call leaves a task that has been accepted as it is. -/
theorem SendStep.spared {t t' : SendTask} {e : FileEvent} (h : SendStep t e t')
    (hbusy : t.busy = true) (hassigned : t.state ≠ .pendingTid) (haccepted : t.state ≠ .pending)
    (he : e.SparesSend t.tid) : t' = t := by
  cases h with
  | keep => rfl
  | submit _ _ _ _ _ hfree => rw [hbusy] at hfree; exact absurd hfree (by simp)
  | submitLost _ _ hfree => rw [hbusy] at hfree; exact absurd hfree (by simp)
  | assign _ _ _ _ _ hstate => exact absurd hstate hassigned
  | accept _ _ _ hstate => exact absurd hstate haccepted
  | noSuchUser _ _ hstate => exact absurd hstate hassigned
  | transferState => exact absurd rfl he
  | tick => exact he.elim
  | reset => exact he.elim
  | clear _ haddr _ hwhy =>
    -- only calls with an addressee get here
    have hnot : e.clearsSend = false ∧ e.confirmsSend = false := by
      cases e with
      | error => exact ⟨rfl, rfl⟩
      | tick => exact he.elim
      | reset => exact he.elim
      | _ => exact he haddr
    rw [hnot.1, hnot.2] at hwhy
    exact absurd hwhy (by simp)

theorem OnSchedule.spared {c : Bytes} {tid k : Nat} {w : World} (h : OnSchedule c tid k w.send)
    {e : FileEvent} (he : e.SparesSend tid) : OnSchedule c tid k (fileStep w e).send := by
  obtain ⟨hbusy, htid, hassigned, haccepted⟩ := h.accepted
  rw [(fileStep_spec w e).send.spared hbusy hassigned haccepted (htid ▸ he)]
  exact h

/-! ### The run -/

/-- What the ticks of a run put out. -/
def tickEffects : World → List FileEvent → List Effect
  | _, [] => []
  | w, e :: events =>
    (match e with
      | .tick _ => (fileStep w e).log.drop w.log.length
      | _ => []) ++ tickEffects (fileStep w e) events

def FileEvent.isTick : FileEvent → Bool
  | .tick _ => true
  | _ => false

/-- A call while the file `c` is sent as `tid`: a tick is good, and another call does not end the
    transfer. -/
def FileEvent.Smooth (c : Bytes) (tid : Nat) : FileEvent → Prop
  | .tick io => io.Good c
  | e => e.SparesSend tid

/-- Nothing fails, and nobody ends the transfer. -/
def SmoothRun (c : Bytes) (tid : Nat) (events : List FileEvent) : Prop :=
  ∀ e ∈ events, e.Smooth c tid

/-- **Run lemma.** -/
theorem onSchedule_run {c : Bytes} {tid k : Nat} (hlen : c.length * 100 < 2 ^ 64) {w : World}
    (h : OnSchedule c tid k w.send) {events : List FileEvent} (hrun : SmoothRun c tid events) :
    OnSchedule c tid (k + events.countP FileEvent.isTick) (fileRun w events).send ∧
      schedule tid c k ++ tickEffects w events =
        schedule tid c (k + events.countP FileEvent.isTick) := by
  induction events generalizing k w with
  | nil => exact ⟨h, List.append_nil _⟩
  | cons e events ih =>
    obtain ⟨he, hrest⟩ := List.forall_mem_cons.mp hrun
    cases e with
    | tick io =>
      obtain ⟨hnext, hlog⟩ := World.fileSendTick_good h hlen he
      obtain ⟨hsend, heffects⟩ := ih (w := fileStep w (.tick io)) hnext hrest
      have hcount : k + (FileEvent.tick io :: events).countP FileEvent.isTick =
          k + 1 + events.countP FileEvent.isTick := by
        rw [List.countP_cons_of_pos rfl]
        omega
      rw [hcount, ← heffects, tickEffects, schedule_succ, fileStep, hlog, List.drop_left,
        List.append_assoc]
      exact ⟨hsend, rfl⟩
    | _ => exact ih (h.spared he) hrest

/-! ### From the acceptance on -/

/-- A task that has not been accepted has something to send, and its first mark is ahead. -/
def FreshSend (t : SendTask) : Prop :=
  t.state = .pendingTid ∨ t.state = .pending →
    0 < t.size ∧ t.nextProgressMark = fileProgressInterval

theorem FreshSend.step {t t' : SendTask} {e : FileEvent} (h : FreshSend t)
    (hstep : SendStep t e t') : FreshSend t' := by
  cases hstep with
  | keep => exact h
  | submit _ _ _ _ _ _ hsize => exact fun _ => ⟨hsize, rfl⟩
  | assign _ _ _ _ _ hstate => exact fun _ => h (Or.inl hstate)
  | accept => simp [FreshSend]
  | tick _ _ _ _ ht =>
    obtain rfl | ⟨-, -, -, hstate⟩ := ht
    · simp [FreshSend, SendTask.zero]
    · rintro (h | h) <;> rw [h] at hstate <;> simp at hstate
  | _ => simp [FreshSend, SendTask.zero]

theorem Reachable.freshSend {w : World} (hw : Reachable w) : FreshSend w.send :=
  hw.invariant (P := fun w => FreshSend w.send)
    (fun _ => by simp [FreshSend, World.init, SendTask.zero])
    fun w e h => h.step (fileStep_spec w e).send

/-- What makes a pending task active changes nothing else in it. -/
theorem SendStep.accepted {t t' : SendTask} {e : FileEvent} (hstep : SendStep t e t')
    (hpending : t.state = .pending) (hactive : t'.state = .active) :
    t.busy = true ∧ t' = { t with state := .active } := by
  cases hstep with
  | accept _ _ hbusy => exact ⟨hbusy, rfl⟩
  | keep => exact absurd (hpending.symm.trans hactive) (by decide)
  | tick _ _ _ hstate => exact absurd hstate (by simp [hpending])
  | _ => exact absurd hactive (by simp [SendTask.zero, SendTask.submitted])

/-- An accepted task is at the start of its schedule. -/
theorem Reachable.onSchedule {c : Bytes} {w : World} (hw : Reachable w)
    (hpending : w.send.state = .pending) (hsize : w.send.size = c.length) {e : FileEvent}
    (hactive : (fileStep w e).send.state = .active) :
    OnSchedule c w.send.tid 0 (fileStep w e).send := by
  obtain ⟨hsent, path, hfp⟩ := hw.coherent.unsent (Or.inr hpending)
  obtain ⟨hpos, hmark⟩ := hw.freshSend (Or.inr hpending)
  obtain ⟨hbusy, haccepted⟩ := (fileStep_spec w e).send.accepted hpending hactive
  rw [hsize] at hpos
  rw [haccepted]
  refine .underway ((lt_roundsFor_iff c 0).mp ((lt_chunkCount_iff c _).mp (by simpa using hpos)))
    ⟨⟨hbusy, rfl, hsize, ⟨path, ?_⟩, by simpa using hsent, ?_, Or.inl rfl⟩, rfl, ?_⟩
  · rw [hsent]
    exact hfp
  · exact Nat.lt_add_left _ fileChunkDataMax_pos
  · show w.send.nextProgressMark = nextMark fileProgressInterval w.send.sent
    rw [hmark, hsent, nextMark, Nat.zero_div, Nat.zero_add, Nat.mul_one]

/-- What the ticks of an accepted task put out. -/
theorem tickEffects_eq {c : Bytes} (hlen : c.length * 100 < 2 ^ 64) {w : World} {tid : Nat}
    (h : OnSchedule c tid 0 w.send) {events : List FileEvent} (hrun : SmoothRun c tid events) :
    tickEffects w events = schedule tid c (events.countP FileEvent.isTick) := by
  have heffects := (onSchedule_run hlen h hrun).2
  rwa [schedule_zero, List.nil_append, Nat.zero_add] at heffects

/-- **The schedule.** Once a file is accepted, whatever calls come between the ticks that do not end
    the transfer: as long as the file can be read and its frames go out, the first `k` ticks put out
    its first `2 * k` pieces in order, a line with the exact percentage behind each one that fills a
    mebibyte, and COMPLETE in the tick after the one with the last piece; the task is done between
    these two, and waits for the confirmation from then on.  Beyond the bound the percentage would
    be computed from an overflown product. -/
theorem send_schedule {c : Bytes} (hlen : c.length * 100 < 2 ^ 64) {w : World} (hw : Reachable w)
    (hpending : w.send.state = .pending) (hsize : w.send.size = c.length) {e : FileEvent}
    (hactive : (fileStep w e).send.state = .active) {events : List FileEvent}
    (hrun : SmoothRun c w.send.tid events) :
    tickEffects (fileStep w e) events =
        schedule w.send.tid c (events.countP FileEvent.isTick) ∧
      (fileRun (fileStep w e) events).send.state =
        scheduledState c (events.countP FileEvent.isTick) ∧
      (fileRun (fileStep w e) events).send.sent =
        sentAfter c (fileChunksPerRound * events.countP FileEvent.isTick) := by
  have hstart := hw.onSchedule hpending hsize hactive
  have hend := (onSchedule_run hlen hstart hrun).1
  rw [Nat.zero_add] at hend
  exact ⟨tickEffects_eq hlen hstart hrun, hend.state, hend.sent⟩

/-- A tick that reads the file and sends its frames. -/
def TickIo.ok (c : Bytes) : TickIo := ⟨fun pos len => (c.drop pos).take len, fun _ => true⟩

theorem TickIo.ok_good (c : Bytes) : (TickIo.ok c).Good c := ⟨fun _ _ => rfl, fun _ => rfl⟩

/-- A client sends the one-byte file.  Between the two ticks the recipient accepts once more, and a
    command for somebody else fails. -/
def twoTicks : List FileEvent :=
  [.tick (.ok [65]), oneByteSender.accept, .error errNoSuchUser Io.ok, .tick (.ok [65])]

theorem smoothRun_twoTicks : SmoothRun [65] sendingClient.send.tid twoTicks := by
  intro e he
  simp only [twoTicks, List.mem_cons, List.not_mem_nil, or_false] at he
  rcases he with rfl | rfl | rfl | rfl
  · exact TickIo.ok_good [65]
  · exact fun _ => ⟨by decide, by decide⟩
  · exact (by decide : errNoSuchUser ≠ errTransferState)
  · exact TickIo.ok_good [65]

theorem send_schedule_one_byte :
    tickEffects (fileStep sendingClient oneByteSender.accept) twoTicks =
        schedule sendingClient.send.tid [65] 2 ∧
      (fileRun (fileStep sendingClient oneByteSender.accept) twoTicks).send.state =
        .waitComplete ∧
      (fileRun (fileStep sendingClient oneByteSender.accept) twoTicks).send.sent = 1 :=
  send_schedule (by decide) oneByteSender.reachable oneByteSender.pending oneByteSender.size
    oneByteSender.active smoothRun_twoTicks

end TCPClient
