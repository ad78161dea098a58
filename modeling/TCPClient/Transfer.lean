import TCPClient.ReceivedFile
import TCPClient.SentChunks

namespace TCPClient

open Octets Cover

/-!
# A transfer end to end

The frames of a sender's run reach a receiver that accepted the transfer, in any order, with
losses and repetitions, and then a completion signal arrives.  `transfer_kept_iff` decides what
is left: the file itself when every frame came exactly once, and no file otherwise.  The one
signal that does not count is a complete announcement which a client that sends to itself takes
for its own send task.
-/

/-! ### The two parties -/

/-- The run of a send task over the file `c`, from the event that makes it `ACTIVE` to
    `DONE`. -/
structure SenderRun (c : Bytes) where
  before : World
  reachable : Reachable before
  pending : before.send.state = .pending
  size : before.send.size = c.length
  accept : FileEvent
  active : (fileStep before accept).send.state = .active
  events : List FileEvent
  sends : SendsFileRun c (fileStep before accept) events
  done : (fileRun (fileStep before accept) events).send.state = .done

namespace SenderRun

variable {c : Bytes} (s : SenderRun c)

def tid : Nat := s.before.send.tid

/-- The CHUNK frames of the run. -/
def frames : List Bytes := tickFrames (fileStep s.before s.accept) s.events

theorem tid_lt : s.tid < 2 ^ 32 := s.reachable.coherent.tidBound

/-- The accepted task has sent nothing yet. -/
theorem sending : Sending c s.tid 0 (fileStep s.before s.accept).send := by
  obtain ⟨hsent, path, hfp⟩ := s.reachable.coherent.unsent (Or.inr s.pending)
  have hstep := (fileStep_spec s.before s.accept).send
  have hpending := s.pending
  have hactive := s.active
  have hsize := s.size
  generalize (fileStep s.before s.accept).send = t' at hstep hactive ⊢
  generalize s.accept = e at hstep
  unfold tid
  generalize s.before.send = t at hsent hfp hstep hpending hsize ⊢
  cases hstep with
  | accept _ haddr hbusy hstate =>
    refine ⟨hbusy, rfl, hsize, ⟨path, ?_⟩, by simpa using hsent, ?_, Or.inl rfl⟩
    · rw [hsent]
      exact hfp
    · rw [Nat.mul_zero]
      exact Nat.lt_add_left _ fileChunkDataMax_pos
  | keep => exact absurd (hpending.symm.trans hactive) (by decide)
  | tick io _ hbusy hstate ht =>
    rw [hpending] at hstate
    exact absurd hstate (by decide)
  | _ => exact absurd hactive (by simp [SendTask.zero, SendTask.submitted])

theorem frames_eq (hlen : c.length < 2 ^ 63) : s.frames = (chunks c).map (chunkFrame s.tid) :=
  tickFrames_eq hlen s.sending s.sends s.done

end SenderRun

/-- A receiver whose `/accept` has just opened the file of transfer `tid`. -/
structure ReceiverStart where
  before : World
  reachable : Reachable before
  tid : Nat
  slot : Slot
  find : before.recvTaskFind tid = some slot
  pending : (before.recv slot).fp = none
  line : Bytes
  io : Io
  names : commandsParseTidArg (line.drop 7) = some tid
  handle : FileHandle
  accepted : ((fileStep before (.accept line io)).recv slot).fp = some handle

namespace ReceiverStart

variable (r : ReceiverStart)

/-- The client behind `/accept`. -/
def start : World := fileStep r.before (.accept r.line r.io)

/-- The announced size. -/
def size : Nat := (r.before.recv r.slot).size

theorem reachable_start : Reachable r.start := .step _ r.reachable

/-- `/accept` has opened an empty file for the task it found. -/
theorem start_spec : (r.start.recv r.slot).size = r.size ∧
    r.start.recvTaskFind r.tid = some r.slot ∧ r.start.fileWrites r.handle.path = [] := by
  have hcoh := r.reachable.coherent.toCoherentTable
  have haccepted : (r.start.recv r.slot).fp = some r.handle := r.accepted
  cases (fileStep_spec r.before (.accept r.line r.io)).files hcoh with
  | carried h =>
    have hsame := (h r.slot r.handle r.accepted).1
    exact absurd r.accepted (by rw [hsame, r.pending]; simp)
  | opened i saveName path hrecv hfree hdisk hwrites =>
    have hi : r.slot = i := by
      by_contra hne
      rw [start, hrecv, Function.update_of_ne hne, r.pending] at haccepted
      exact absurd haccepted (by simp)
    subst hi
    have hpath : (⟨path, 0⟩ : FileHandle) = r.handle := by
      rw [start, hrecv, Function.update_self] at haccepted
      exact Option.some.inj haccepted
    refine ⟨?_, ?_, ?_⟩
    · rw [start, hrecv, Function.update_self]
      rfl
    · rw [← r.find, start]
      refine World.recvTaskFind_congr fun j => ?_
      rw [hrecv]
      by_cases hj : j = r.slot
      · subst hj
        rw [Function.update_self]
        exact ⟨rfl, rfl⟩
      · rw [Function.update_of_ne hj]
        exact ⟨rfl, rfl⟩
    · rw [← hpath]
      exact hwrites
  | written i fh offset data hfp hspan hrecv hdisk hwrites =>
    -- a chunk is written into a file that was open before
    exfalso
    by_cases hi : r.slot = i
    · rw [← hi, r.pending] at hfp
      exact absurd hfp (by simp)
    · rw [start, hrecv, Function.update_of_ne hi, r.pending] at haccepted
      exact absurd haccepted (by simp)

end ReceiverStart

/-! ### Delivery -/

/-- A frame arrives: it is parsed and handed to the file module. -/
def deliver (w : World) (frame : Bytes) (io : Io) : World :=
  match protocolParse frame with
  | .item _ (type, payload) => fileStep w (.frame type payload io)
  | _ => w

/-- Frames arrive one after another. -/
def deliverAll (w : World) (frames : List (Bytes × Io)) : World :=
  frames.foldl (fun w x => deliver w x.1 x.2) w

theorem Reachable.deliver {w : World} (hw : Reachable w) (frame : Bytes) (io : Io) :
    Reachable (deliver w frame io) := by
  unfold TCPClient.deliver
  cases protocolParse frame with
  | item n v => exact .step _ hw
  | more => exact hw
  | bad => exact hw

theorem Reachable.deliverAll {w : World} (hw : Reachable w) (frames : List (Bytes × Io)) :
    Reachable (deliverAll w frames) := by
  induction frames generalizing w with
  | nil => exact hw
  | cons x frames ih => exact ih (hw.deliver x.1 x.2)

variable {c : Bytes} {tid : Nat}

/-- A CHUNK frame of the sender is a chunk for the receiver. -/
theorem deliver_chunkFrame (htid : tid < 2 ^ 32) (hlen : c.length < 2 ^ 63) {p : Write}
    (hp : p ∈ chunks c) (w : World) (io : Io) :
    deliver w (chunkFrame tid p) io = w.recvChunk io tid p.1 p.2 := by
  obtain ⟨-, hpos, hshort, hin, -⟩ := piece_spec fileChunkDataMax_pos hp
  have htidRead : utilsReadU32Be (chunkPayload tid p) = tid := by
    rw [chunkPayload, List.append_assoc, utilsReadU32Be_write]
    omega
  have hdrop : (chunkPayload tid p).drop 4 = utilsWriteU64Be p.1 ++ p.2 := by
    rw [chunkPayload, List.append_assoc, List.drop_left' (length_utilsWriteU32Be tid)]
  have hoffset : utilsReadU64Be ((chunkPayload tid p).drop 4) = p.1 := by
    rw [hdrop, utilsReadU64Be_write]
    omega
  have hdata : (chunkPayload tid p).drop 12 = p.2 := by
    rw [show 12 = 4 + 8 by rfl, ← List.drop_drop, hdrop,
      List.drop_left' (length_utilsWriteU64Be p.1)]
  rw [deliver, protocolParse_chunkFrame _ hshort]
  dsimp only
  rw [fileStep, World.fileFrame_chunk w io (by rw [length_chunkPayload]; omega), htidRead,
    hoffset, hdata]

/-- Pieces of one file have different frames. -/
theorem chunkFrame_inj (hlen : c.length < 2 ^ 63) {p q : Write} (hp : p ∈ chunks c)
    (hq : q ∈ chunks c) (h : chunkFrame tid p = chunkFrame tid q) : p = q := by
  obtain ⟨-, -, hps, hpin, -⟩ := piece_spec fileChunkDataMax_pos hp
  obtain ⟨-, -, hqs, hqin, -⟩ := piece_spec fileChunkDataMax_pos hq
  have hparse := protocolParse_chunkFrame tid hps
  rw [h, protocolParse_chunkFrame tid hqs] at hparse
  have hpayload : chunkPayload tid q = chunkPayload tid p := by
    have hitem := Feed.Outcome.item.inj hparse
    exact congrArg Prod.snd hitem.2
  have hoffset : utilsWriteU64Be q.1 = utilsWriteU64Be p.1 := by
    unfold chunkPayload at hpayload
    rw [List.append_assoc, List.append_assoc] at hpayload
    exact (List.append_inj (List.append_cancel_left hpayload) (by simp)).1
  exact eq_of_offset fileChunkDataMax_pos hp hq
    (beOctets_inj (by omega) (by omega) hoffset).symm

/-! ### The receiver while frames arrive -/

/-- The chunks `ws` have arrived: either the file is open and they are its writes, or one came
    twice, the file is gone and nobody takes further chunks. -/
inductive Receiving (c : Bytes) (tid : Nat) (i : Slot) (path : Bytes) (ws : List Write)
    (w : World) : Prop where
  | active (fh : FileHandle) (hfind : w.recvTaskFind tid = some i)
      (hfp : (w.recv i).fp = some fh) (hpath : fh.path = path)
      (hsize : (w.recv i).size = c.length) (hwrites : w.fileWrites path = ws)
  | gone (hdup : ¬ (ws.map Prod.fst).Nodup) (hdisk : w.disk path = none)
      (hclosed : ∀ j, (w.recv j).busy = true → (w.recv j).tid = tid → (w.recv j).fp = none)

/-- **Step lemma.** One more chunk is written when it is new and ends the transfer when it is
    not. -/
theorem Receiving.chunk {i : Slot} {path : Bytes} {ws : List Write} {w : World}
    (h : Receiving c tid i path ws w) (hw : Reachable w) (hlen : c.length < 2 ^ 63)
    {p : Write} (hp : p ∈ chunks c) {io : Io} (hio : io.FilesWork) :
    Receiving c tid i path (ws ++ [p]) (w.recvChunk io tid p.1 p.2) := by
  have hcoh := hw.coherent.toCoherentTable
  obtain ⟨hdvd, hpos, hshort, hin, -⟩ := piece_spec fileChunkDataMax_pos hp
  cases h with
  | active fh hfind hfp hpath hsize hwrites =>
    subst hpath
    have hfile := hw.filesOk i fh hfp
    rw [hwrites] at hfile
    have hspan := hfile.span_iff p.1 p.2.length
    unfold World.recvChunk
    rw [hfind]
    dsimp only
    rw [hfp]
    dsimp only
    -- the span check of a chunk of the sender asks only whether it is new
    by_cases hnew : ∀ v ∈ ws, v.1 ≠ p.1
    · have hok : fileRecvSpanCheck (w.recv i).size ((w.recv i).bitmap.getD [])
          (w.recv i).bitmapLen p.1 p.2.length = true :=
        hspan.mpr ⟨hdvd, hpos, hshort, by rw [hsize]; exact hin, hnew⟩
      have hseek : ¬ (¬ io.fseekOk = true ∨ 2 ^ 63 ≤ p.1) := by
        rintro (hf | hf)
        · exact hf hio.fseek
        · omega
      have hall : io.fwritten p.2 = p.2 := by
        rw [Io.fwritten, hio.fwrite]
      rw [if_neg (not_not_intro hok), if_neg hseek, hall, if_neg (not_not_intro rfl)]
      refine .active { fh with pos := p.1 + p.2.length } ?_ (by simp) rfl ?_ ?_
      · rw [← hfind]
        refine World.recvTaskFind_congr fun j => ?_
        by_cases hj : j = i
        · subst hj
          simp
        · simp [hj]
      · simpa using hsize
      · simp [World.fwrite, hwrites]
    · -- a chunk that was written before is refused, and the file with it
      have hrefused : ¬ fileRecvSpanCheck (w.recv i).size ((w.recv i).bitmap.getD [])
          (w.recv i).bitmapLen p.1 p.2.length = true :=
        fun hok => hnew (hspan.mp hok).2.2.2.2
      rw [if_pos hrefused]
      refine .gone ?_ ?_ fun j hbusy htid => ?_
      · push Not at hnew
        obtain ⟨v, hv, hvp⟩ := hnew
        rw [List.map_append, List.nodup_append]
        rintro ⟨-, -, hne⟩
        exact hne v.1 (List.mem_map_of_mem hv) p.1 (by simp) hvp
      · exact World.disk_recvTaskClear_of_active (by simpa using hcoh) (by simpa using hfp) hio
      · rw [World.recv, World.tasks_recvTaskAbort] at hbusy ⊢
        by_cases hj : j = i
        · subst hj
          simp [RecvTask.zero]
        · -- only one file was open
          simp only [Function.update_of_ne hj]
          by_contra hne
          exact hj (hcoh.oneActive j i (Option.isSome_iff_ne_none.mpr hne) (by simp [hfp]))
  | gone hdup hdisk hclosed =>
    have hsame : w.recvChunk io tid p.1 p.2 = w := by
      refine World.recvChunk_eq_self io p.1 p.2 fun j hfind => ?_
      obtain ⟨hbusy, htid⟩ := World.recvTaskFind_eq_some hfind
      exact hclosed j hbusy htid
    rw [hsame]
    refine .gone (fun hnd => hdup ?_) hdisk hclosed
    rw [List.map_append] at hnd
    exact (List.nodup_append.mp hnd).1

/-- **Run lemma.** Whatever frames of the sender arrive, the receiver is in one of the two
    states. -/
theorem ReceiverStart.receiving (r : ReceiverStart) (htid : r.tid < 2 ^ 32)
    (hsize : r.size = c.length) (hlen : c.length < 2 ^ 63) {frames : List (Bytes × Io)}
    (hframes : ∀ x ∈ frames, x.1 ∈ (chunks c).map (chunkFrame r.tid) ∧ x.2.FilesWork) :
    ∃ ws, frames.map Prod.fst = ws.map (chunkFrame r.tid) ∧ (∀ p ∈ ws, p ∈ chunks c) ∧
      Receiving c r.tid r.slot r.handle.path ws (deliverAll r.start frames) := by
  obtain ⟨hstartSize, hfind, hwrites⟩ := r.start_spec
  induction frames using List.reverseRecOn with
  | nil =>
    exact ⟨[], rfl, by simp,
      .active r.handle hfind r.accepted rfl (hstartSize.trans hsize) hwrites⟩
  | append_singleton frames x ih =>
    obtain ⟨ws, hws, hmem, hrecv⟩ := ih fun y hy => hframes y (List.mem_append_left _ hy)
    obtain ⟨hx, hio⟩ := hframes x (by simp)
    obtain ⟨p, hp, hpx⟩ := List.mem_map.mp hx
    refine ⟨ws ++ [p], by simp [hws, hpx], ?_, ?_⟩
    · intro q hq
      rcases List.mem_append.mp hq with hq | hq
      · exact hmem q hq
      · rw [List.mem_singleton.mp hq]
        exact hp
    · rw [deliverAll, List.foldl_append, List.foldl_cons, List.foldl_nil, ← hpx,
        deliver_chunkFrame htid hlen hp]
      exact hrecv.chunk (r.reachable_start.deliverAll frames) hlen hp hio

/-- Completion keeps the file when every chunk came exactly once, and leaves none otherwise. -/
theorem Receiving.complete {i : Slot} {path : Bytes} {ws : List Write} {w : World}
    (h : Receiving c tid i path ws w) (hw : Reachable w) (hmem : ∀ p ∈ ws, p ∈ chunks c)
    {io : Io} (hio : io.FilesWork) :
    (w.recvTaskComplete io tid).disk path =
      if (ws.map Prod.fst).Nodup ∧ ∀ p ∈ chunks c, p ∈ ws then some c else none := by
  have hcoh := hw.coherent.toCoherentTable
  cases h with
  | active fh hfind hfp hpath hsize hwrites =>
    subst hpath
    have hfile := hw.filesOk i fh hfp
    rw [hwrites] at hfile
    have hfinish : w.recvTaskComplete io tid = w.recvTaskFinish io i := by
      unfold World.recvTaskComplete
      rw [hfind]
      exact if_pos (by simp [hfp])
    -- the counter reaches the size exactly when no chunk is missing
    have hfull : (w.recv i).received = (w.recv i).size ↔ ∀ p ∈ chunks c, p ∈ ws := by
      rw [hfile.received, hsize]
      exact sum_length_eq_iff_pieces fileChunkDataMax_pos hmem hfile.once
    rw [hfinish, World.disk_recvTaskFinish hcoh hfp hio, hfile.content]
    by_cases hall : ∀ p ∈ chunks c, p ∈ ws
    · rw [if_pos (hfull.mpr hall), if_pos ⟨hfile.once, hall⟩,
        writeAll_of_pieces fileChunkDataMax_pos hmem hall]
    · rw [if_neg fun hr => hall (hfull.mp hr), if_neg fun hr => hall hr.2]
  | gone hdup hdisk hclosed =>
    rw [if_neg fun hr => hdup hr.1, ← hdisk]
    unfold World.recvTaskComplete
    cases hfind : w.recvTaskFind tid with
    | none => rfl
    | some j =>
      obtain ⟨hbusy, htid⟩ := World.recvTaskFind_eq_some hfind
      have hfp := hclosed j hbusy htid
      dsimp only
      rw [hfp, if_neg (by simp),
        World.disk_recvTaskClear_of_pending io hfp (hcoh.pendingName j hfp)]

/-! ### The result -/

/-- Every frame came exactly once: no chunk repeated, none missing. -/
theorem count_eq_one_iff (hlen : c.length < 2 ^ 63) {ws : List Write}
    (hmem : ∀ p ∈ ws, p ∈ chunks c) :
    (∀ f ∈ (chunks c).map (chunkFrame tid), (ws.map (chunkFrame tid)).count f = 1) ↔
      (ws.map Prod.fst).Nodup ∧ ∀ p ∈ chunks c, p ∈ ws := by
  have hnodup : (ws.map (chunkFrame tid)).Nodup ↔ (ws.map Prod.fst).Nodup := by
    unfold List.Nodup
    rw [List.pairwise_map, List.pairwise_map]
    refine List.Pairwise.iff_of_mem fun {p q} hp hq => not_congr ?_
    constructor
    · intro h
      rw [chunkFrame_inj hlen (hmem p hp) (hmem q hq) h]
    · intro h
      rw [eq_of_offset fileChunkDataMax_pos (hmem p hp) (hmem q hq) h]
  rw [← hnodup]
  constructor
  · intro hone
    constructor
    · rw [List.nodup_iff_count_le_one]
      intro f
      by_cases hf : f ∈ ws.map (chunkFrame tid)
      · obtain ⟨p, hp, rfl⟩ := List.mem_map.mp hf
        exact (hone _ (List.mem_map_of_mem (hmem p hp))).le
      · rw [List.count_eq_zero_of_not_mem hf]
        exact Nat.zero_le 1
    · intro p hp
      have hcount := hone _ (List.mem_map_of_mem hp)
      have hin : chunkFrame tid p ∈ ws.map (chunkFrame tid) := by
        apply List.count_pos_iff.mp
        omega
      obtain ⟨q, hq, hqp⟩ := List.mem_map.mp hin
      rw [← chunkFrame_inj hlen (hmem q hq) hp hqp]
      exact hq
  · rintro ⟨hnd, hall⟩ f hf
    obtain ⟨p, hp, rfl⟩ := List.mem_map.mp hf
    exact List.count_eq_one_of_mem hnd (List.mem_map_of_mem (hall p hp))

/-- What the end of a transfer should leave under the name the receiver chose: the file when
    every frame of the sender was delivered exactly once, and no file otherwise. -/
def KeepsExactly (s : SenderRun c) (r : ReceiverStart) (delivered : List (Bytes × Io))
    (signal : FileEvent) : Prop :=
  (fileStep (deliverAll r.start delivered) signal).disk r.handle.path =
    if ∀ f ∈ s.frames, (delivered.map Prod.fst).count f = 1 then some c else none

/-- **End to end.** The receiver keeps the file, byte for byte, exactly when every frame of the
    sender was delivered exactly once, in whatever order; in every other case no file remains.
    The completion signal is a COMPLETE frame, or a complete announcement that the client's own
    send task does not wait for. -/
theorem transfer_kept_iff (s : SenderRun c) (hlen : c.length < 2 ^ 63) (r : ReceiverStart)
    (htid : r.tid = s.tid) (hsize : r.size = c.length) {delivered : List (Bytes × Io)}
    (hdelivered : ∀ x ∈ delivered, x.1 ∈ s.frames ∧ x.2.FilesWork) {signal : FileEvent} {io : Io}
    (hsignal : CompletionSignal r.tid io signal) (hio : io.FilesWork)
    (hother : ∀ text, signal = .announcement text io →
      ¬ ((deliverAll r.start delivered).send.busy = true ∧
        (deliverAll r.start delivered).send.tid = r.tid ∧
        (deliverAll r.start delivered).send.state = .waitComplete)) :
    KeepsExactly s r delivered signal := by
  have hframes := s.frames_eq hlen
  rw [← htid] at hframes
  rw [hframes] at hdelivered
  obtain ⟨ws, hws, hmem, hrecv⟩ :=
    r.receiving (htid ▸ s.tid_lt) hsize hlen hdelivered
  have hreach := r.reachable_start.deliverAll delivered
  have hcomplete : fileStep (deliverAll r.start delivered) signal =
      (deliverAll r.start delivered).recvTaskComplete io r.tid := by
    rcases hsignal.fileStep_eq (deliverAll r.start delivered) with h | ⟨hb, ht, hst, hclear⟩
    · exact h
    · cases hsignal with
      | frame payload h4 hread =>
        rw [fileStep, World.fileFrame_control _ io _ h4, hread]
        rfl
      | announcement text hparse => exact absurd ⟨hb, ht, hst⟩ (hother text rfl)
  rw [KeepsExactly, hcomplete, hrecv.complete hreach hmem hio, hframes, hws]
  simp only [count_eq_one_iff hlen hmem]

/-- A client that sends the one-byte file `a` and has learned the id 7. -/
def sendingClient : World :=
  fileRun (World.init fun _ => none)
    [.sendfile (utf8 "/sendfile bob a") ⟨true, true, 1, true, true, SendfileIo.fsizeLong_one⟩,
      .announcement ((Announcement.waiting (utf8 "a") 1 (utf8 "bob")).text 7) Io.ok]

/-- Its file is accepted and sent in one tick. -/
def oneByteSender : SenderRun [65] where
  before := sendingClient
  reachable := .run (.init _) _
  pending := by decide +kernel
  size := by decide +kernel
  accept := .announcement ((Announcement.accepted (utf8 "bob")).text 7) Io.ok
  active := by decide +kernel
  events := [.tick ⟨fun pos len => (([65] : Bytes).drop pos).take len, fun _ => true⟩]
  sends := ⟨fun _ _ => rfl, trivial⟩
  done := by decide +kernel

/-- Another client accepts the file. -/
def oneByteReceiver : ReceiverStart where
  before := fileRun (World.init fun _ => none)
    [.announcement ((Announcement.incoming (utf8 "bob") (utf8 "a") 1).text 7) Io.ok,
      .frame msgFileInit (utf8 "bob" ++ 0 :: utf8 "a" ++ 0 :: utf8 "1" ++ [0]) Io.ok]
  reachable := .run (.init _) _
  tid := 7
  slot := 0
  find := by decide +kernel
  pending := by decide +kernel
  line := utf8 "/accept 7"
  io := Io.ok
  names := by decide +kernel
  handle := ⟨utf8 "downloads/a", 0⟩
  accepted := by decide +kernel

/-- The one frame of the file arrives, and then COMPLETE. -/
theorem transfer_kept_iff_one_byte :
    KeepsExactly oneByteSender oneByteReceiver [(chunkFrame 7 (0, [65]), Io.ok)]
      (.frame msgFileComplete (utilsWriteU32Be 7) Io.ok) :=
  transfer_kept_iff oneByteSender (by decide) oneByteReceiver (by decide +kernel)
    (by decide +kernel)
    (fun x hx => by
      rw [List.mem_singleton.mp hx]
      exact ⟨by decide +kernel, rfl, rfl, rfl, rfl⟩)
    (.frame (utilsWriteU32Be 7) (by decide) (by decide)) ⟨rfl, rfl, rfl, rfl⟩
    (fun text h => absurd h (by simp))

/-- A client that sends the file to itself. -/
def ownReceiver : ReceiverStart where
  before := fileRun (fileStep sendingClient oneByteSender.accept)
    (oneByteSender.events ++
      [.tick ⟨fun _ _ => [], fun _ => true⟩,
        .announcement ((Announcement.incoming (utf8 "bob") (utf8 "a") 1).text 7) Io.ok,
        .frame msgFileInit (utf8 "bob" ++ 0 :: utf8 "a" ++ 0 :: utf8 "1" ++ [0]) Io.ok])
  reachable := .run (.step _ (.run (.init _) _)) _
  tid := 7
  slot := 0
  find := by decide +kernel
  pending := by decide +kernel
  line := utf8 "/accept 7"
  io := Io.ok
  names := by decide +kernel
  handle := ⟨utf8 "downloads/a", 0⟩
  accepted := by decide +kernel

/-- The complete announcement goes to the send task of a client that sends to itself: the empty
    file of the receive task stays, although no frame was delivered. -/
theorem own_complete_leaves_partial_file :
    CompletionSignal ownReceiver.tid Io.ok
        (.announcement ((Announcement.complete (utf8 "a") 1 1).text 7) Io.ok) ∧
      ownReceiver.tid = oneByteSender.tid ∧ ownReceiver.size = ([65] : Bytes).length ∧
      ¬ KeepsExactly oneByteSender ownReceiver []
        (.announcement ((Announcement.complete (utf8 "a") 1 1).text 7) Io.ok) := by
  refine ⟨.announcement _ (by decide +kernel), by decide +kernel, by decide +kernel, ?_⟩
  unfold KeepsExactly
  decide +kernel

end TCPClient
