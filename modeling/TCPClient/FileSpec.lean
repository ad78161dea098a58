import TCPClient.FileModule

namespace TCPClient

open Octets

/-!
# What one event can do to the tasks

`TableStep` lists the changes an event can make to the receive table, `SendStep` those to the
send task and `FileStep` those to the files of open tasks, each with the conditions under which
it happens; `fileStep_spec` says that nothing else happens.  Invariants are proved by going
through these lists, without unfolding an operation again.
-/

/-- The transfer an event is addressed to: the argument of a command, the id in an announcement
    about a known transfer, the id of a control frame or a chunk. -/
def FileEvent.addressee : FileEvent → Option Nat
  | .accept line _ | .reject line _ | .cancel line _ => commandsParseTidArg (line.drop 7)
  | .announcement text _ =>
    match fileParseAnnouncement text with
    | none => none
    | some (kind, tid) => if kind = .sendPending ∨ kind = .recvPending then none else some tid
  | .frame type payload _ =>
    if payload.length = 4 then
      if type = msgFileAccept ∨ type = msgFileReject ∨ type = msgFileCancel ∨
          type = msgFileComplete then some (utilsReadU32Be payload)
      else none
    else if type = msgFileChunk ∧ 12 ≤ payload.length then some (utilsReadU32Be payload)
    else none
  | _ => none

/-- The events that end the send task they match in whatever state it is. -/
def FileEvent.clearsSend : FileEvent → Bool
  | .cancel _ io => io.sendOk
  | .announcement text _ =>
    match fileParseAnnouncement text with
    | some (.rejected, _) | some (.cancelled, _) | some (.cancelledDisc, _) => true
    | _ => false
  | .frame type payload _ =>
    payload.length = 4 ∧ (type = msgFileReject ∨ type = msgFileCancel)
  | _ => false

/-- The announcement that confirms a file, which ends the send task it matches once COMPLETE is
    out. -/
def FileEvent.confirmsSend : FileEvent → Bool
  | .announcement text _ =>
    match fileParseAnnouncement text with
    | some (.complete, _) => true
    | _ => false
  | _ => false

/-- The task `/sendfile` registers. -/
def SendTask.submitted (target filename : Bytes) (size : Nat) : SendTask :=
  { SendTask.zero with
    busy := true
    state := .pendingTid
    fp := some ⟨filename, 0⟩
    size := size
    nextProgressMark := fileProgressInterval
    target := target
    filename := filename }

/-- The task an incoming announcement makes. -/
def RecvTask.announced (tid seq : Nat) : RecvTask :=
  { RecvTask.zero with busy := true, tid := tid, seq := seq }

/-- A task with the fields of an INIT frame. -/
def RecvTask.filled (t : RecvTask) (f : InitFields) : RecvTask :=
  { t with inited := true, sender := f.sender, filename := f.filename, size := f.size }

/-- The receive table. -/
abbrev Table := Slot → RecvTask

/-- A task that waits for its INIT frame. -/
def RecvTask.Waiting (t : RecvTask) : Prop := t.busy = true ∧ t.inited = false

instance (t : RecvTask) : Decidable t.Waiting := inferInstanceAs (Decidable (_ ∧ _))

/-- The length of the bitmap `/accept` asks for. -/
def RecvTask.bitmapNeed (t : RecvTask) : Nat :=
  fileChunkCount t.size fileChunkDataMax / 8 + 1

/-- The task after `/accept` opened `path`. -/
def RecvTask.opened (t : RecvTask) (saveName path : Bytes) : RecvTask :=
  let bitmapLen := fileChunkCount t.size fileChunkDataMax / 8 + 1
  { t with
    saveName := saveName
    bitmapLen := bitmapLen
    bitmap := some (List.replicate bitmapLen 0)
    fp := some ⟨path, 0⟩ }

/-- The task after a chunk was written. -/
def RecvTask.written (t : RecvTask) (h : FileHandle) (offset len : Nat) : RecvTask :=
  { t with
    bitmap := t.bitmap.map fun b => fileRecvSpanMark b t.bitmapLen offset
    received := t.received + len
    fp := some { h with pos := offset + len } }

/-- The changes of the receive table (and the sequence counter) an event can make. -/
inductive TableStep (r : Table) (seq : Nat) : FileEvent → Table → Nat → Prop where
  | keep (e : FileEvent) : TableStep r seq e r seq
  | clear (e : FileEvent) (i : Slot) (hbusy : (r i).busy = true)
      (haddr : e.addressee = some (r i).tid ∨ ∃ io, e = .error errTransferState io) :
      TableStep r seq e (Function.update r i RecvTask.zero) seq
  | reset (io : Slot → Io) (r' : Table)
      (hr : ∀ i, r' i = if (r i).busy then RecvTask.zero else r i) :
      TableStep r seq (.reset io) r' seq
  | announce (text : Bytes) (io : Io) (tid : Nat) (i : Slot)
      (hparse : fileParseAnnouncement text = some (.recvPending, tid))
      (hfree : (r i).busy = false) :
      TableStep r seq (.announcement text io)
        (Function.update r i (RecvTask.announced tid seq)) ((seq + 1) % 2 ^ 64)
  | fill (payload : Bytes) (io : Io) (f : InitFields) (i : Slot)
      (hfields : initFields payload = some f) (hlen : payload.length ≠ 4)
      (hwaits : (r i).Waiting) (hfirst : ∀ j, (r j).Waiting → (r i).seq ≤ (r j).seq) :
      TableStep r seq (.frame msgFileInit payload io)
        (Function.update r i ((r i).filled f)) seq
  | opened (e : FileEvent) (i : Slot) (saveName path : Bytes)
      (haddr : e.addressee = some (r i).tid) (hbusy : (r i).busy = true)
      (hinit : (r i).inited = true) (hsize : 0 < (r i).size)
      (hnone : ∀ j, (r j).busy = true → (r j).fp = none) (hname : saveName ≠ [])
      (hpath : fileJoinPath fileDownloadDir saveName 512 = some path) :
      TableStep r seq e (Function.update r i ((r i).opened saveName path)) seq
  | written (e : FileEvent) (i : Slot) (h : FileHandle) (offset len : Nat)
      (haddr : e.addressee = some (r i).tid) (hbusy : (r i).busy = true)
      (hfp : (r i).fp = some h)
      (hspan : fileRecvSpanCheck (r i).size ((r i).bitmap.getD []) (r i).bitmapLen offset len) :
      TableStep r seq e (Function.update r i ((r i).written h offset len)) seq

/-- The changes of the send task an event can make. -/
inductive SendStep (t : SendTask) : FileEvent → SendTask → Prop where
  | keep (e : FileEvent) : SendStep t e t
  | submit (line : Bytes) (io : SendfileIo) (target filename : Bytes) (size : Nat)
      (hfree : t.busy = false) (hsize : 0 < size) :
      SendStep t (.sendfile line io) (SendTask.submitted target filename size)
  | submitLost (line : Bytes) (io : SendfileIo) (hfree : t.busy = false) :
      SendStep t (.sendfile line io) SendTask.zero
  | assign (text : Bytes) (io : Io) (tid : Nat)
      (hparse : fileParseAnnouncement text = some (.sendPending, tid))
      (hbusy : t.busy = true) (hstate : t.state = .pendingTid) :
      SendStep t (.announcement text io) { t with tid := tid, state := .pending }
  | accept (e : FileEvent) (haddr : e.addressee = some t.tid) (hbusy : t.busy = true)
      (hstate : t.state = .pending) : SendStep t e { t with state := .active }
  | clear (e : FileEvent) (haddr : e.addressee = some t.tid) (hbusy : t.busy = true)
      (hwhy : e.clearsSend = true ∨ e.confirmsSend = true ∧ t.state = .waitComplete) :
      SendStep t e SendTask.zero
  | noSuchUser (io : Io) (hbusy : t.busy = true) (hstate : t.state = .pendingTid) :
      SendStep t (.error errNoSuchUser io) SendTask.zero
  | transferState (io : Io) (hbusy : t.busy = true) :
      SendStep t (.error errTransferState io) SendTask.zero
  | tick (io : TickIo) (t' : SendTask) (hbusy : t.busy = true)
      (hstate : t.state = .active ∨ t.state = .done)
      (ht : t' = SendTask.zero ∨
        (t'.busy = true ∧ t'.tid = t.tid ∧ t'.size = t.size ∧
          (t'.state = .active ∨ t'.state = .done ∨ t'.state = .waitComplete))) :
      SendStep t (.tick io) t'
  | reset (io : Slot → Io) (hbusy : t.busy = true) : SendStep t (.reset io) SendTask.zero

/-- A receive task without an open file has no save name and no bitmap and has received nothing; an
    open file belongs to a busy task with its INIT fields, is the file of the task's save name, and
    is the only one. -/
structure CoherentTable (r : Table) : Prop where
  pendingName : ∀ i, (r i).fp = none → (r i).saveName = []
  pendingReceived : ∀ i, (r i).fp = none → (r i).received = 0
  pendingBitmap : ∀ i, (r i).fp = none → (r i).bitmap = none
  activeBusy : ∀ i h, (r i).fp = some h → (r i).busy = true
  activeInited : ∀ i h, (r i).fp = some h → (r i).inited = true
  activePath : ∀ i h, (r i).fp = some h → (r i).saveName ≠ [] ∧
    fileJoinPath fileDownloadDir (r i).saveName 512 = some h.path
  oneActive : ∀ i j, (r i).fp.isSome = true → (r j).fp.isSome = true → i = j

/-- What an event does to the files of open tasks, from a coherent table: a task that is open
    afterwards was so before with the same file, or was opened, or wrote a chunk. -/
inductive FileStep (w w' : World) : Prop where
  | carried (h : ∀ i fh, (w'.recv i).fp = some fh → w'.recv i = w.recv i ∧
      w'.disk fh.path = w.disk fh.path ∧ w'.fileWrites fh.path = w.fileWrites fh.path)
  | opened (i : Slot) (saveName path : Bytes)
      (hrecv : w'.recv = Function.update w.recv i ((w.recv i).opened saveName path))
      (hfree : ∀ j, (w.recv j).fp = none)
      (hdisk : w'.disk path = some []) (hwrites : w'.fileWrites path = [])
  | written (i : Slot) (fh : FileHandle) (offset : Nat) (data : Bytes)
      (hfp : (w.recv i).fp = some fh)
      (hspan : fileRecvSpanCheck (w.recv i).size ((w.recv i).bitmap.getD [])
        (w.recv i).bitmapLen offset data.length)
      (hrecv : w'.recv = Function.update w.recv i ((w.recv i).written fh offset data.length))
      (hdisk : w'.disk fh.path = (w.disk fh.path).map fun c => Cover.writeAt c offset data)
      (hwrites : w'.fileWrites fh.path = w.fileWrites fh.path ++ [(offset, data)])

namespace World

/-! ### The receive table, operation by operation -/

/-- `recv_task_finish` clears its slot and no other. -/
theorem tasks_recvTaskFinish (w : World) (io : Io) (i : Slot) :
    (w.recvTaskFinish io i).tasks =
      { w.tasks with recv := Function.update w.recv i RecvTask.zero } := by
  rw [recvTaskFinish]
  dsimp only
  split_ifs <;> simp

/-- So does `recv_task_abort`. -/
theorem tasks_recvTaskAbort (w : World) (io : Io) (i : Slot) (why : Bytes) :
    (w.recvTaskAbort io i why).tasks =
      { w.tasks with recv := Function.update w.recv i RecvTask.zero } := by
  simp [recvTaskAbort]

/-- So does `recv_task_reject`. -/
theorem tasks_recvTaskReject (w : World) (io : Io) (i : Slot) (why : Bytes) :
    (w.recvTaskReject io i why).tasks =
      { w.tasks with recv := Function.update w.recv i RecvTask.zero } := by
  simp [recvTaskReject]

/-- The receive table, its counter and all files are those of before. -/
structure SameTable (w w' : World) : Prop where
  recv : w'.tasks.recv = w.tasks.recv
  recvSeq : w'.tasks.recvSeq = w.tasks.recvSeq
  disk : w'.disk = w.disk
  writes : ∀ path, w'.fileWrites path = w.fileWrites path

theorem SameTable.refl (w : World) : SameTable w w := ⟨rfl, rfl, rfl, fun _ => rfl⟩

theorem SameTable.trans {w1 w2 w3 : World} (h : SameTable w1 w2) (h' : SameTable w2 w3) :
    SameTable w1 w3 :=
  ⟨h'.recv.trans h.recv, h'.recvSeq.trans h.recvSeq, h'.disk.trans h.disk,
    fun path => (h'.writes path).trans (h.writes path)⟩

/-- The send task is not in the table. -/
theorem sameTable_setSend (w : World) (t : SendTask) : SameTable w (w.setSend t) :=
  ⟨rfl, rfl, rfl, fun _ => rfl⟩

/-- Clearing the send task leaves the table alone. -/
theorem sameTable_sendTaskClear (w : World) : SameTable w w.sendTaskClear :=
  ⟨by simp, by simp, by simp, by simp⟩

/-- A call that leaves the tasks alone leaves the table alone. -/
theorem Quiet.sameTable {w w' : World} (h : Quiet w w') : SameTable w w' :=
  ⟨by rw [h.1], by rw [h.1], h.2.1, h.2.2⟩

/-- One event's change of the tasks and of their files. -/
structure TasksStep (w : World) (e : FileEvent) (w' : World) : Prop where
  table : TableStep w.recv w.recvSeq e w'.recv w'.recvSeq
  send : SendStep w.send e w'.send
  files : CoherentTable w.recv → FileStep w w'

variable {w w' : World} {e : FileEvent} {tid : Nat}

/-- An operation on the send task. -/
theorem TasksStep.ofSend (h : SameTable w w') (hsend : SendStep w.send e w'.send) :
    TasksStep w e w' where
  table := by
    show TableStep w.recv w.recvSeq e w'.tasks.recv w'.tasks.recvSeq
    rw [h.recv, h.recvSeq]
    exact .keep e
  send := hsend
  files := fun _ => .carried fun i fh _ => ⟨congrFun h.recv i, by rw [h.disk], h.writes _⟩

/-- An operation that leaves all tasks and files alone. -/
theorem TasksStep.keep (h : Quiet w w') : TasksStep w e w' := by
  refine .ofSend h.sameTable ?_
  show SendStep w.send e w'.tasks.send
  rw [h.1]
  exact .keep e

/-- An operation that clears the receive task its id finds.  When the task is not the open one,
    the operation must not have touched the file of the open one. -/
theorem TasksStep.clear {i : Slot} (hfind : w.recvTaskFind tid = some i)
    (haddr : e.addressee = some tid)
    (ht : w'.tasks = { w.tasks with recv := Function.update w.recv i RecvTask.zero })
    (hd : (w.recv i).fp = none → (w.recv i).saveName = [] →
      (∀ j, j ≠ i → (w.recv j).fp = none) ∨
        (w'.disk = w.disk ∧ ∀ path, w'.fileWrites path = w.fileWrites path)) :
    TasksStep w e w' := by
  obtain ⟨hbusy, htid⟩ := recvTaskFind_eq_some hfind
  have hrecv : w'.recv = Function.update w.recv i RecvTask.zero := by simp only [recv, ht]
  have hseq : w'.recvSeq = w.recvSeq := by simp only [recvSeq, ht]
  have hsend : w'.send = w.send := by simp only [World.send, ht]
  constructor
  · rw [hrecv, hseq]
    exact .clear e i hbusy (Or.inl (by rw [haddr, htid]))
  · rw [hsend]
    exact .keep e
  · intro hcoh
    refine .carried fun j fh hj => ?_
    have hji : j ≠ i := by
      rintro rfl
      rw [hrecv, Function.update_self] at hj
      exact absurd hj (by simp [RecvTask.zero])
    rw [hrecv, Function.update_of_ne hji] at hj
    -- the open task is another one, so the cleared one had no file
    have hpend : (w.recv i).fp = none := by
      by_contra hne
      exact hji (hcoh.oneActive j i (by simp [hj]) (Option.isSome_iff_ne_none.mpr hne))
    rcases hd hpend (hcoh.pendingName i hpend) with hnone | ⟨hdisk, hwrites⟩
    · rw [hnone j hji] at hj
      exact absurd hj (by simp)
    · exact ⟨by rw [hrecv, Function.update_of_ne hji], by rw [hdisk], hwrites _⟩

/-- Clearing a task, on the way to which nothing happened to the files. -/
theorem TasksStep.clearQuiet {w1 : World} (io : Io) {i : Slot} (hq : Quiet w w1)
    (hfind : w.recvTaskFind tid = some i) (haddr : e.addressee = some tid) :
    TasksStep w e (w1.recvTaskClear io i) := by
  obtain ⟨htasks, hdisk, hwrites⟩ := hq
  refine .clear hfind haddr (by simp [htasks]) fun hfp hname => Or.inr ⟨?_, fun path => ?_⟩
  · rw [disk_recvTaskClear_of_pending io (by simpa only [recv, htasks] using hfp)
      (by simpa only [recv, htasks] using hname), hdisk]
  · rw [fileWrites_recvTaskClear, hwrites]

/-- Lines shown and frames sent after the step. -/
theorem TasksStep.quiet {w1 : World} (h : TasksStep w e w1) (hq : Quiet w1 w') :
    TasksStep w e w' := by
  obtain ⟨htasks, hdisk, hwrites⟩ := hq
  refine ⟨?_, ?_, fun hcoh => ?_⟩
  · simpa only [recv, recvSeq, htasks] using h.table
  · simpa only [World.send, htasks] using h.send
  · cases h.files hcoh with
    | carried hc =>
      refine .carried fun i fh hi => ?_
      simp only [recv, htasks, hdisk, hwrites] at hi ⊢
      exact hc i fh hi
    | opened i saveName path hrecv hfree hd hw =>
      exact .opened i saveName path (by simpa only [recv, htasks] using hrecv) hfree
        (by rw [hdisk, hd]) (by rw [hwrites, hw])
    | written i fh offset data hfp hspan hrecv hd hw =>
      exact .written i fh offset data hfp hspan (by simpa only [recv, htasks] using hrecv)
        (by rw [hdisk, hd]) (by rw [hwrites, hw])

/-- Clearing the task that has the open file. -/
theorem TasksStep.clearActive {i : Slot} {fh : FileHandle} (hfp : (w.recv i).fp = some fh)
    (hfind : w.recvTaskFind tid = some i) (haddr : e.addressee = some tid)
    (ht : w'.tasks = { w.tasks with recv := Function.update w.recv i RecvTask.zero }) :
    TasksStep w e w' :=
  .clear hfind haddr ht fun hnone _ => absurd hfp (by simp [hnone])

/-- An operation that clears the send task an event matches. -/
theorem TasksStep.clearSend (haddr : e.addressee = some tid)
    (hm : w.sendTaskMatches tid = true)
    (hwhy : e.clearsSend = true ∨ e.confirmsSend = true ∧ w.send.state = .waitComplete) :
    TasksStep w e w.sendTaskClear := by
  obtain ⟨hbusy, htid⟩ := sendTaskMatches_iff.mp hm
  refine .ofSend w.sameTable_sendTaskClear ?_
  simpa using SendStep.clear e (by rw [haddr, htid]) hbusy hwhy

/-! ### The receiving side -/

/-- A completion ends the task of its id. -/
theorem recvTaskComplete_spec (w : World) (io : Io) (haddr : e.addressee = some tid) :
    TasksStep w e (w.recvTaskComplete io tid) := by
  unfold recvTaskComplete
  cases hfind : w.recvTaskFind tid with
  | none => exact .keep (.refl w)
  | some i =>
    dsimp only
    split_ifs with hactive
    · obtain ⟨fh, hfp⟩ := Option.isSome_iff_exists.mp hactive
      exact .clearActive hfp hfind haddr (w.tasks_recvTaskFinish io i)
    · exact .clearQuiet io (.refl w) hfind haddr

/-- A new offer takes a free slot, or is refused. -/
theorem recvAnnounceIncoming_spec (w : World) (io : Io) {text : Bytes}
    (hparse : fileParseAnnouncement text = some (.recvPending, tid)) :
    TasksStep w (.announcement text io) (w.recvAnnounceIncoming io tid) := by
  unfold recvAnnounceIncoming
  cases hslot : w.recvTaskSlot with
  | none => exact .keep ((quiet_print _ _).trans (quiet_sendTid _ _ _ _))
  | some i =>
    refine ⟨.announce text io tid i hparse (recvTaskSlot_eq_some hslot), .keep _, fun _ => ?_⟩
    refine .carried fun j fh hj => ?_
    have hji : j ≠ i := by
      rintro rfl
      simp [RecvTask.zero] at hj
    exact ⟨Function.update_of_ne hji _ _, rfl, rfl⟩

/-- What the search of `recv_handle_init` has found among the slots it has seen. -/
private def BestOf (r : Table) (seen : List Slot) : Option Slot → Prop
  | none => ∀ j ∈ seen, ¬ (r j).Waiting
  | some i => (r i).Waiting ∧ ∀ j ∈ seen, (r j).Waiting → (r i).seq ≤ (r j).seq

/-- One slot more in the search of `recv_fill_init`. -/
private theorem bestOf_step {r : Table} {seen : List Slot} {best : Option Slot}
    (h : BestOf r seen best) (i : Slot) :
    BestOf r (seen ++ [i])
      (if (r i).busy ∧ ¬ (r i).inited ∧ (∀ b, best = some b → (r i).seq < (r b).seq) then some i
      else best) := by
  have hwait : (r i).Waiting ↔ (r i).busy = true ∧ ¬ (r i).inited = true := by
    simp [RecvTask.Waiting]
  split_ifs with hc
  · refine ⟨hwait.mpr ⟨hc.1, hc.2.1⟩, ?_⟩
    intro j hj hw
    rcases List.mem_append.mp hj with hj | hj
    · cases best with
      | none => exact absurd hw (h j hj)
      | some b => exact le_trans (le_of_lt (hc.2.2 b rfl)) (h.2 j hj hw)
    · rw [List.mem_singleton.mp hj]
  · cases best with
    | none =>
      intro j hj hw
      rcases List.mem_append.mp hj with hj | hj
      · exact h j hj hw
      · rw [List.mem_singleton.mp hj] at hw
        exact hc ⟨(hwait.mp hw).1, (hwait.mp hw).2, fun b hb => absurd hb (by simp)⟩
    | some b =>
      -- the best so far stays: the new slot does not wait or is not older
      refine ⟨h.1, ?_⟩
      intro j hj hw
      rcases List.mem_append.mp hj with hj | hj
      · exact h.2 j hj hw
      · rw [List.mem_singleton.mp hj] at hw ⊢
        by_contra hlt
        refine hc ⟨(hwait.mp hw).1, (hwait.mp hw).2, ?_⟩
        rintro b' hb'
        rw [← Option.some.inj hb']
        omega

/-- The search of `recv_handle_init` finds the oldest waiting task, if any task waits. -/
theorem recvInitBest_spec (w : World) :
    (∀ i, w.recvInitBest = some i →
      (w.recv i).Waiting ∧ ∀ j, (w.recv j).Waiting → (w.recv i).seq ≤ (w.recv j).seq) ∧
    (w.recvInitBest = none → ∀ j, ¬ (w.recv j).Waiting) := by
  have key : ∀ (l seen : List Slot) (best : Option Slot), BestOf w.recv seen best →
      BestOf w.recv (seen ++ l) (l.foldl (fun best i =>
        if (w.recv i).busy ∧ ¬ (w.recv i).inited ∧
            (∀ b, best = some b → (w.recv i).seq < (w.recv b).seq) then some i
        else best) best) := by
    intro l
    induction l with
    | nil => intro seen best h; simpa using h
    | cons i l ih =>
      intro seen best h
      have hstep := ih (seen ++ [i]) _ (bestOf_step h i)
      rwa [List.append_assoc] at hstep
  have hall : BestOf w.recv (List.finRange fileMaxRecvPending) w.recvInitBest :=
    key (List.finRange fileMaxRecvPending) [] none (fun j hj => absurd hj (by simp))
  constructor
  · intro i hi
    rw [hi] at hall
    exact ⟨hall.1, fun j hw => hall.2 j (List.mem_finRange j) hw⟩
  · intro hnone j
    rw [hnone] at hall
    exact hall j (List.mem_finRange j)

/-- INIT goes to the oldest task that has none. -/
theorem recvFillInit_spec (w : World) (io : Io) {payload : Bytes} {f : InitFields}
    (hfields : initFields payload = some f) (hlen : payload.length ≠ 4) :
    TasksStep w (.frame msgFileInit payload io) (w.recvFillInit f) := by
  unfold recvFillInit
  cases hbest : w.recvInitBest with
  | none => exact .keep (.refl w)
  | some i =>
    obtain ⟨hwaits, hfirst⟩ := w.recvInitBest_spec.1 i hbest
    refine ⟨.fill payload io f i hfields hlen hwaits hfirst, .keep _, fun hcoh => ?_⟩
    refine .carried fun j fh hj => ?_
    -- a task that waits for its INIT frame has no file
    have hji : j ≠ i := by
      rintro rfl
      have hinit := hcoh.activeInited j fh (by simpa using hj)
      exact absurd (hwaits.2.symm.trans hinit) (by simp)
    exact ⟨Function.update_of_ne hji _ _, rfl, rfl⟩

/-- A chunk goes to the task of its id. -/
theorem recvChunk_spec (w : World) (io : Io) (offset : Nat) (data : Bytes)
    (haddr : e.addressee = some tid) : TasksStep w e (w.recvChunk io tid offset data) := by
  unfold recvChunk
  cases hfind : w.recvTaskFind tid with
  | none => exact .keep (.refl w)
  | some i =>
    obtain ⟨hbusy, htid⟩ := recvTaskFind_eq_some hfind
    dsimp only
    cases hfp : (w.recv i).fp with
    | none => exact .keep (.refl w)
    | some h =>
      dsimp only
      split_ifs with hspan hseek hshort
      · exact .clearActive hfp hfind haddr (tasks_recvTaskAbort w io i _)
      · exact .clearActive hfp hfind haddr (tasks_recvTaskAbort _ io i _)
      · -- all of the data was written
        rw [Io.fwritten_eq (not_not.mp hshort)]
        refine ⟨.written e i h offset data.length (by rw [haddr, htid]) hbusy hfp hspan, .keep e,
          fun _ => .written i h offset data hfp hspan rfl ?_ ?_⟩
        · simp [fwrite, setDisk, setRecv, emit]
        · simp [fwrite]
      · exact .clearActive hfp hfind haddr (tasks_recvTaskAbort w io i _)

/-! ### What `/accept` does about an id -/

/-- The last part of `/accept` fails before ACCEPT is sent. -/
def RefusesInto (io : Io) (saveName : Bytes) : Prop :=
  io.mkdirOk = false ∨ io.mallocOk = false ∨ fileJoinPath fileDownloadDir saveName 512 = none ∨
    io.fopenOk = false

/-- The client itself refuses the transfer an `/accept` names: it is empty, has no usable name,
    or its file cannot be created. -/
def RefusesAccept (w : World) (io : Io) (tid : Nat) : Prop :=
  ∃ i, w.recvTaskFind tid = some i ∧ ((w.recv i).size = 0 ∨
    ∀ base, fileBasenameSanitize (w.recv i).filename maxFilenameLen = some base →
      ∀ name, fileUniqueName base w.recvNameTaken maxFilenameLen = some name →
        RefusesInto io name)

/-- The task of this id waits for the user with its INIT fields filled in, and no file is open. -/
structure AwaitsUser (w : World) (tid : Nat) (i : Slot) : Prop where
  find : w.recvTaskFind tid = some i
  idle : (w.recv i).fp = none
  alone : w.recvTaskActive = none
  inited : (w.recv i).inited = true

/-- The task is not empty, and this is the name its file gets. -/
structure Names (w : World) (i : Slot) (saveName : Bytes) : Prop where
  size : (w.recv i).size ≠ 0
  name : ∃ base, fileBasenameSanitize (w.recv i).filename maxFilenameLen = some base ∧
    fileUniqueName base w.recvNameTaken maxFilenameLen = some saveName

/-- What `/accept` has done about the bitmap where it gives up: it has not asked for it yet,
    `malloc` has failed, or the task has it. -/
inductive AskedBitmap (w : World) (i : Slot) : World → Option Bytes → Prop where
  | notYet : AskedBitmap w i w (w.recv i).bitmap
  | refused (len : Nat) : AskedBitmap w i (w.emit (.malloc len false)) none
  | granted (bitmap : Bytes) :
      AskedBitmap w i (w.emit (.malloc bitmap.length true)) (some bitmap)

/-- Asking for memory leaves the tasks alone. -/
theorem AskedBitmap.quiet {i : Slot} {bitmap : Option Bytes} (h : w.AskedBitmap i w' bitmap) :
    Quiet w w' := by
  cases h with
  | notYet => exact .refl w
  | refused len => exact ⟨rfl, rfl, fun path => by simp⟩
  | granted bitmap => exact ⟨rfl, rfl, fun path => by simp⟩

/-- The branches of `/accept` behind its argument, each with what holds where it is taken.  No
    line on the way to a file starts as the lines of `recv_task_finish` do. -/
inductive AcceptBranch (w : World) (io : Io) (tid : Nat) : World × Status → Prop where
  | unknown (hfind : w.recvTaskFind tid = none) :
      AcceptBranch w io tid (w.noSuchTransfer tid, .ok)
  | early (i : Slot) (text : Bytes) (hfind : w.recvTaskFind tid = some i)
      (hnot : ¬ w.AwaitsUser tid i) (htext : ¬ utf8 "文件 #" <+: text) :
      AcceptBranch w io tid (w.print text, .ok)
  | unnamed (i : Slot) (why : Bytes) (h : w.AwaitsUser tid i) (hown : w.RefusesAccept io tid)
      (hwhy : ¬ utf8 "文件 #" <+: why) : AcceptBranch w io tid (w.recvTaskReject io i why, .ok)
  -- the refusals once the task has its name: only fields of the task have changed
  | uncreated (i : Slot) (v : World) (t : RecvTask) (why : Bytes) (h : w.AwaitsUser tid i)
      (hown : w.RefusesAccept io tid) (hname : w.Names i t.saveName)
      (htid : t.tid = (w.recv i).tid) (hfp : t.fp = none)
      (hasked : w.AskedBitmap i v t.bitmap) (hwhy : ¬ utf8 "文件 #" <+: why) :
      AcceptBranch w io tid ((v.setRecv i t).recvTaskReject io i why, .ok)
  | lost (i : Slot) (saveName path : Bytes) (h : w.AwaitsUser tid i)
      (hown : ¬ w.RefusesAccept io tid) (hname : w.Names i saveName)
      (hpath : fileJoinPath fileDownloadDir saveName 512 = some path)
      (hsend : io.sendOk = false) :
      AcceptBranch w io tid
        (((((w.emit (.malloc (w.recv i).bitmapNeed true)).fopenWrite path).setRecv i
          ((w.recv i).opened saveName path)).emit
            (.send (tidFrame msgFileAccept tid).encode false)).recvTaskClear io i, .lost)
  | accepted (i : Slot) (saveName path : Bytes) (h : w.AwaitsUser tid i)
      (hown : ¬ w.RefusesAccept io tid) (hname : w.Names i saveName)
      (hpath : fileJoinPath fileDownloadDir saveName 512 = some path)
      (hsend : io.sendOk = true) :
      AcceptBranch w io tid
        (((((w.emit (.malloc (w.recv i).bitmapNeed true)).fopenWrite path).setRecv i
          ((w.recv i).opened saveName path)).emit
            (.send (tidFrame msgFileAccept tid).encode true)).print
            (utf8 "已接受 #" ++ (decimal tid ++ (utf8 "，保存到: " ++ (fileDownloadDir ++
              (utf8 "/" ++ saveName))))), .ok)

/-- Where the name is chosen, what follows decides whether the client refuses. -/
theorem Names.refuses_iff {i : Slot} {saveName : Bytes} (hname : w.Names i saveName) (io : Io)
    (hfind : w.recvTaskFind tid = some i) :
    w.RefusesAccept io tid ↔ RefusesInto io saveName := by
  obtain ⟨base, hbase, hunique⟩ := hname.name
  constructor
  · rintro ⟨j, hj, hr⟩
    obtain rfl := Option.some.inj (hfind.symm.trans hj)
    exact hr.resolve_left hname.size base hbase saveName hunique
  · refine fun hr => ⟨i, hfind, Or.inr fun base' hbase' name' hname' => ?_⟩
    obtain rfl := Option.some.inj (hbase.symm.trans hbase')
    obtain rfl := Option.some.inj (hunique.symm.trans hname')
    exact hr

/-- Behind the choice of the name `/accept` fails or is done. -/
theorem acceptInto_branch (io : Io) {i : Slot} {saveName : Bytes} (h : w.AwaitsUser tid i)
    (hname : w.Names i saveName) : AcceptBranch w io tid (w.acceptInto io tid i saveName) := by
  have hiff := hname.refuses_iff io h.find
  rw [acceptInto]
  dsimp only
  by_cases hmkdir : io.mkdirOk = true
  swap
  · rw [if_pos hmkdir]
    have hown := hiff.mpr (Or.inl (by simpa using hmkdir))
    exact .uncreated i w _ _ h hown hname rfl h.idle .notYet (by decide +kernel)
  by_cases hmalloc : io.mallocOk = true
  swap
  · rw [if_neg (not_not_intro hmkdir), if_pos hmalloc]
    have hown := hiff.mpr (Or.inr (Or.inl (by simpa using hmalloc)))
    exact .uncreated i _ _ _ h hown hname rfl h.idle (.refused _) (by decide +kernel)
  rw [if_neg (not_not_intro hmkdir), if_neg (not_not_intro hmalloc)]
  -- the task has its bitmap from here on
  have hgranted : w.AskedBitmap i (w.emit (.malloc (w.recv i).bitmapNeed true))
      (some (List.replicate (w.recv i).bitmapNeed 0)) := by
    have h := AskedBitmap.granted (w := w) (i := i) (List.replicate (w.recv i).bitmapNeed 0)
    rwa [List.length_replicate] at h
  cases hpath : fileJoinPath fileDownloadDir saveName 512 with
  | none =>
    have hown := hiff.mpr (Or.inr (Or.inr (Or.inl hpath)))
    exact .uncreated i _ _ _ h hown hname rfl h.idle hgranted (by decide +kernel)
  | some path =>
    dsimp only
    by_cases hfopen : io.fopenOk = true
    swap
    · rw [if_pos hfopen]
      have hown := hiff.mpr (Or.inr (Or.inr (Or.inr (by simpa using hfopen))))
      exact .uncreated i _ _ _ h hown hname rfl h.idle hgranted (by decide +kernel)
    have hown : ¬ w.RefusesAccept io tid := by
      rw [hiff]
      simp [RefusesInto, hmkdir, hmalloc, hpath, hfopen]
    rw [if_neg (not_not_intro hfopen), sendTid_eq]
    cases hsend : io.sendOk with
    | false => exact .lost i saveName path h hown hname hpath hsend
    | true => exact .accepted i saveName path h hown hname hpath hsend

/-- **`/accept` takes one of these branches.** -/
theorem acceptTid_branch (w : World) (io : Io) (tid : Nat) :
    AcceptBranch w io tid (w.acceptTid io tid) := by
  unfold acceptTid
  cases hfind : w.recvTaskFind tid with
  | none => exact .unknown hfind
  | some i =>
    dsimp only
    split_ifs with hfp hactive hinit hsize
    · exact .early i _ hfind (fun h => by simp [h.idle] at hfp) (by decide +kernel)
    · exact .early i _ hfind (fun h => by simp [h.alone] at hactive) (by decide +kernel)
    · have h : w.AwaitsUser tid i := ⟨hfind, by simpa using hfp,
        Option.not_isSome_iff_eq_none.mp hactive, hinit⟩
      exact .unnamed i _ h ⟨i, hfind, Or.inl hsize⟩ (by decide +kernel)
    · have h : w.AwaitsUser tid i := ⟨hfind, by simpa using hfp,
        Option.not_isSome_iff_eq_none.mp hactive, hinit⟩
      cases hbase : fileBasenameSanitize (w.recv i).filename maxFilenameLen with
      | none =>
        refine .unnamed i _ h ⟨i, hfind, Or.inr fun base' hbase' => ?_⟩ (by decide +kernel)
        exact absurd (hbase.symm.trans hbase') (by simp)
      | some base =>
        dsimp only
        cases hunique : fileUniqueName base w.recvNameTaken maxFilenameLen with
        | none =>
          refine .unnamed i _ h ⟨i, hfind, Or.inr fun base' hbase' name hname => ?_⟩
            (by decide +kernel)
          obtain rfl := Option.some.inj (hbase.symm.trans hbase')
          exact absurd (hunique.symm.trans hname) (by simp)
        | some saveName => exact acceptInto_branch io h ⟨hsize, base, hbase, hunique⟩
    · exact .early i _ hfind (fun h => hinit h.inited) (by decide +kernel)

/-- In a coherent table an open file would belong to a busy task. -/
theorem AwaitsUser.noneOpen {i : Slot} (h : w.AwaitsUser tid i) (hcoh : CoherentTable w.recv)
    (j : Slot) : (w.recv j).fp = none := by
  have hidle := recvTaskActive_eq_none.mp h.alone
  cases hj : (w.recv j).fp with
  | none => rfl
  | some fh => exact absurd (hidle j (hcoh.activeBusy j fh hj)) (by simp [hj])

/-- The name that is chosen is not empty. -/
theorem Names.ne_nil {i : Slot} {saveName : Bytes} (hname : w.Names i saveName) :
    saveName ≠ [] := by
  obtain ⟨base, hbase, hunique⟩ := hname.name
  exact fileUniqueName_ne_nil (fileBasenameSanitize_ne_nil hbase) hunique

/-- No other task holds it. -/
theorem Names.untaken {i : Slot} {saveName : Bytes} (hname : w.Names i saveName) :
    w.recvNameTaken saveName = false := by
  obtain ⟨base, -, hunique⟩ := hname.name
  exact (fileUniqueName_spec hunique).2.1

/-- The chosen name is one whose path can be built. -/
theorem Names.exists_path {i : Slot} {saveName : Bytes} (hname : w.Names i saveName) :
    ∃ path, fileJoinPath fileDownloadDir saveName 512 = some path := by
  have huntaken := hname.untaken
  cases hpath : fileJoinPath fileDownloadDir saveName 512 with
  | none => simp [recvNameTaken, hpath] at huntaken
  | some path => exact ⟨path, rfl⟩

/-- No file has the chosen name yet. -/
theorem Names.free {i : Slot} {saveName path : Bytes} (hname : w.Names i saveName)
    (hpath : fileJoinPath fileDownloadDir saveName 512 = some path) : w.disk path = none := by
  simpa [recvNameTaken, hpath, filePathExists] using hname.untaken

/-- A refused task is cleared; no file was open, so none is touched. -/
theorem AwaitsUser.cleared {i : Slot} (h : w.AwaitsUser tid i) (haddr : e.addressee = some tid)
    (ht : w'.tasks = { w.tasks with recv := Function.update w.recv i RecvTask.zero }) :
    TasksStep w e w' := by
  have hkeep : TasksStep w e { w with tasks := w'.tasks } :=
    .clear h.find haddr ht fun _ _ => Or.inr ⟨rfl, fun _ => rfl⟩
  refine ⟨hkeep.table, hkeep.send, fun hcoh => .carried fun j fh hj => ?_⟩
  have hpend : (w'.recv j).fp = none := by
    simp only [recv, ht, Function.update_apply]
    split_ifs
    · rfl
    · exact h.noneOpen hcoh j
  rw [hpend] at hj
  exact absurd hj (by simp)

/-- `/accept` moves the task of its id. -/
theorem acceptTid_spec (w : World) (io : Io) (haddr : e.addressee = some tid) :
    TasksStep w e (w.acceptTid io tid).1 := by
  have hbranch := w.acceptTid_branch io tid
  generalize w.acceptTid io tid = res at hbranch ⊢
  cases hbranch with
  | unknown hfind => exact .keep (quiet_print _ _)
  | early i text hfind hnot htext => exact .keep (quiet_print _ _)
  | unnamed i why h hown hwhy =>
    exact h.cleared haddr (tasks_recvTaskReject w io i why)
  | uncreated i v t why h hown hname htid hfp hasked hwhy =>
    refine h.cleared haddr ?_
    rw [tasks_recvTaskReject]
    simp [hasked.quiet.1]
  | lost i saveName path h hown hname hpath =>
    refine h.cleared haddr ?_
    simp
  | accepted i saveName path h hown hname hpath =>
    obtain ⟨hbusy, htid⟩ := recvTaskFind_eq_some h.find
    refine ⟨.opened e i saveName path (by rw [haddr, htid]) hbusy h.inited
      (Nat.pos_of_ne_zero hname.size) (recvTaskActive_eq_none.mp h.alone) hname.ne_nil hpath,
      .keep e, fun hcoh => .opened i saveName path rfl (h.noneOpen hcoh) ?_ ?_⟩
    · simp [fopenWrite, setDisk, setRecv, emit, print]
    · simp [fopenWrite]

/-- `/reject` clears the pending task of its id. -/
theorem rejectTid_spec (w : World) (io : Io) (haddr : e.addressee = some tid) :
    TasksStep w e (w.rejectTid io tid).1 := by
  unfold rejectTid
  cases hfind : w.recvTaskFind tid with
  | none => exact .keep (quiet_print _ _)
  | some i =>
    have hsent := quiet_sendTid w msgFileReject tid io.sendOk
    dsimp only
    split_ifs
    · exact .keep (quiet_print _ _)
    · rw [sendTid_eq] at hsent ⊢
      cases hok : io.sendOk with
      | false => rw [hok] at hsent; exact .keep hsent
      | true =>
        rw [hok] at hsent
        exact .clearQuiet io (hsent.trans (quiet_print _ _)) hfind haddr

/-! ### Signals and `/cancel` -/

/-- The peer's acceptance starts the send task of its id. -/
theorem accepted_spec (w : World) (haddr : e.addressee = some tid) :
    TasksStep w e (w.accepted tid) := by
  unfold accepted
  split_ifs with h
  · obtain ⟨hbusy, htid⟩ := sendTaskMatches_iff.mp h.1
    exact .ofSend (sameTable_setSend _ _) (.accept e (by rw [haddr, htid]) hbusy h.2)
  · exact .keep (.refl w)

/-- The peer's rejection clears it. -/
theorem rejected_spec (w : World) (haddr : e.addressee = some tid)
    (hwhy : e.clearsSend = true) : TasksStep w e (w.rejected tid) := by
  unfold rejected
  split_ifs with h
  · exact .clearSend haddr h (Or.inl hwhy)
  · exact .keep (.refl w)

/-- A cancellation clears the task of its id, on either side. -/
theorem cancelled_spec (w : World) (io : Io) (haddr : e.addressee = some tid)
    (hwhy : e.clearsSend = true) : TasksStep w e (w.cancelled io tid) := by
  unfold cancelled
  split_ifs with h
  · exact .clearSend haddr h (Or.inl hwhy)
  · cases hfind : w.recvTaskFind tid with
    | none => exact .keep (.refl w)
    | some i => exact .clearQuiet io (.refl w) hfind haddr

/-- `/cancel` clears the task of its id once its frame is out. -/
theorem cancelTid_spec (w : World) (io : Io) (haddr : e.addressee = some tid)
    (hwhy : io.sendOk = true → e.clearsSend = true) : TasksStep w e (w.cancelTid io tid).1 := by
  have hsent := quiet_sendTid w msgFileCancel tid io.sendOk
  unfold cancelTid
  rw [sendTid_eq] at hsent ⊢
  split_ifs with h
  · cases hok : io.sendOk with
    | false => rw [hok] at hsent; exact .keep hsent
    | true =>
      obtain ⟨hbusy, htid⟩ := sendTaskMatches_iff.mp h
      refine .ofSend ?_ ?_
      · rw [hok] at hsent
        exact (hsent.sameTable.trans (sameTable_sendTaskClear _)).trans
          (quiet_print _ _).sameTable
      · simpa using SendStep.clear e (by rw [haddr, htid]) hbusy (Or.inl (hwhy hok))
  · cases hfind : w.recvTaskFind tid with
    | none => exact .keep (quiet_print _ _)
    | some i =>
      cases hok : io.sendOk with
      | false => rw [hok] at hsent; exact .keep hsent
      | true =>
        rw [hok] at hsent
        exact (TasksStep.clearQuiet io hsent hfind haddr).quiet (quiet_print _ _)

/-! ### The sending side -/

/-- `/sendfile` registers a task, or gives up without one. -/
theorem fileCmdSendfile_spec (w : World) (io : SendfileIo) (line : Bytes) :
    TasksStep w (.sendfile line io) (w.fileCmdSendfile io line).1 := by
  have hread : ∀ filename, Quiet w (w.emit (.fopenRead filename)) := fun _ => ⟨rfl, rfl, by simp⟩
  apply w.fileCmdSendfile_cases (P := fun res => TasksStep w (.sendfile line io) res.1)
  case refused => exact fun _ _ text _ => .keep (quiet_print w text)
  case givenUp =>
    intro _ _ filename text _
    have hclosed : Quiet w ((w.emit (.fopenRead filename)).emit (.fclose filename true)) :=
      ⟨rfl, rfl, by simp⟩
    exact .keep (hclosed.trans (quiet_print _ text))
  case submitted =>
    intro target filename h
    have hlost : SendStep w.send (.sendfile line io) SendTask.zero := .submitLost line io h.idle
    have hset : ∀ t, SameTable w ((w.emit (.fopenRead filename)).setSend t) := fun t =>
      (hread filename).sameTable.trans (sameTable_setSend _ t)
    unfold sendInit
    dsimp only
    cases protocolBuildText3 msgFileInit target filename (decimal io.fsize.toNat)
        (protoHeaderSize + maxUsernameLen + maxFilenameLen + 32) with
    | none =>
      exact .ofSend ((hset _).trans (sameTable_sendTaskClear _)) (by simpa using hlost)
    | some frame =>
      have hsent : ∀ (v : World) (ok : Bool), SameTable v (v.connSendAll frame ok).1 :=
        fun v ok => ⟨rfl, rfl, rfl, fun path => by simp [connSendAll]⟩
      cases io.sendOk with
      | false =>
        refine .ofSend (((hset _).trans (hsent _ false)).trans (sameTable_sendTaskClear _)) ?_
        simpa [connSendAll] using hlost
      | true =>
        have hpos : 0 < io.fsize.toNat := by have hsize := h.size; omega
        exact .ofSend (((hset _).trans (hsent _ true)).trans (quiet_print _ _).sameTable)
          (.submit line io target filename io.fsize.toNat h.idle hpos)

/-- What a round of the tick loop leaves of a send task it does not clear. -/
def Ticked (t t' : SendTask) : Prop :=
  t'.busy = t.busy ∧ t'.tid = t.tid ∧ t'.size = t.size ∧ t'.state = t.state

/-- Showing the progress notes the percentage in the send task only. -/
theorem showProgress_spec (w : World) :
    SameTable w w.showProgress ∧ Ticked w.send w.showProgress.send := by
  unfold showProgress
  dsimp only
  split_ifs
  · exact ⟨⟨rfl, rfl, rfl, fun _ => by simp⟩, rfl, rfl, rfl, rfl⟩
  · exact ⟨.refl w, rfl, rfl, rfl, rfl⟩

/-- A round of the tick loop sends a chunk, or clears the task and returns. -/
theorem tickChunk_spec (w : World) (io : TickIo) (i : Nat) :
    SameTable w (w.tickChunk io i).1 ∧
      (((w.tickChunk io i).1.send = SendTask.zero ∧ (w.tickChunk io i).2 ≠ none) ∨
        ((w.tickChunk io i).2 = none ∧ Ticked w.send (w.tickChunk io i).1.send)) := by
  -- the four early returns
  have hgone : ∀ (w' : World) (status : Status), SameTable w w' →
      SameTable w (w'.sendTaskClear, some status).1 ∧
        (((w'.sendTaskClear, some status).1.send = SendTask.zero ∧
            (w'.sendTaskClear, some status).2 ≠ none) ∨
          ((w'.sendTaskClear, some status).2 = none ∧ Ticked w.send w'.sendTaskClear.send)) :=
    fun w' status h => ⟨h.trans (sameTable_sendTaskClear w'), Or.inl ⟨by simp, by simp⟩⟩
  unfold tickChunk
  cases fileChunkPlan w.send.size fileChunkDataMax (w.send.sent / fileChunkDataMax) with
  | none => exact hgone w _ (.refl w)
  | some plan =>
    obtain ⟨offset, len⟩ := plan
    dsimp only
    generalize (io.fread _ len).take len = data
    by_cases hread : data.length ≠ len
    · rw [if_pos hread]
      exact hgone _ _ ((quiet_print _ _).trans (quiet_sendTid _ _ _ _)).sameTable
    rw [if_neg hread]
    cases protocolBuildChunk w.send.tid offset data (protoHeaderSize + 12 + fileChunkDataMax) with
    | none => exact hgone w _ (.refl w)
    | some frame =>
      have hsent : ∀ ok, SameTable w (w.emit (.send frame ok)) :=
        fun ok => ⟨rfl, rfl, rfl, fun _ => by simp⟩
      cases io.sendOk i with
      | false => exact hgone _ _ (hsent false)
      | true =>
        obtain ⟨htable, htask⟩ := showProgress_spec ((w.emit (.send frame true)).setSend
          { w.send with
            sent := w.send.sent + len
            fp := w.send.fp.map fun h => { h with pos := h.pos + len } })
        exact ⟨((hsent true).trans (sameTable_setSend _ _)).trans htable, Or.inr ⟨rfl, htask⟩⟩

/-- The send task after a tick that did not clear it. -/
def Advanced (t t' : SendTask) : Prop :=
  t'.busy = true ∧ t'.tid = t.tid ∧ t'.size = t.size ∧
    (t'.state = .active ∨ t'.state = .done ∨ t'.state = .waitComplete)

/-- The end of the tick moves the send task only. -/
theorem tickEnd_spec (w : World) (hbusy : w.send.busy = true) (hstate : w.send.state = .active) :
    SameTable w w.tickEnd ∧ Advanced w.send w.tickEnd.send := by
  unfold tickEnd
  split_ifs
  · exact ⟨sameTable_setSend _ _, hbusy, rfl, rfl, Or.inr (Or.inl rfl)⟩
  · exact ⟨.refl w, hbusy, rfl, rfl, Or.inl hstate⟩

/-- So do the rounds of the tick. -/
theorem tickLoop_spec (io : TickIo) (fuel i : Nat) (w : World) (hbusy : w.send.busy = true)
    (hstate : w.send.state = .active) :
    SameTable w (tickLoop io fuel i w).1 ∧
      ((tickLoop io fuel i w).1.send = SendTask.zero ∨
        Advanced w.send (tickLoop io fuel i w).1.send) := by
  induction fuel generalizing i w with
  | zero => exact ⟨(tickEnd_spec w hbusy hstate).1, Or.inr (tickEnd_spec w hbusy hstate).2⟩
  | succ fuel ih =>
    rw [tickLoop]
    split_ifs with hmore
    · obtain ⟨htable, hcase⟩ := tickChunk_spec w io i
      generalize w.tickChunk io i = res at htable hcase ⊢
      obtain ⟨w1, early⟩ := res
      rcases hcase with ⟨hzero, hsome⟩ | ⟨hnone, hb, ht, hs, hst⟩
      · cases early with
        | none => exact absurd rfl hsome
        | some status => exact ⟨htable, Or.inl hzero⟩
      · cases early with
        | some status => exact absurd hnone (by simp)
        | none =>
          obtain ⟨htable', hcase'⟩ := ih (i + 1) w1 (hb.trans hbusy) (hst.trans hstate)
          refine ⟨htable.trans htable', hcase'.imp_right ?_⟩
          rintro ⟨hb', ht', hs', hst'⟩
          exact ⟨hb', ht'.trans ht, hs'.trans hs, hst'⟩
    · exact ⟨(tickEnd_spec w hbusy hstate).1, Or.inr (tickEnd_spec w hbusy hstate).2⟩

/-- A tick touches an active or finished send task only, and no receive task. -/
theorem fileSendTick_spec (w : World) (io : TickIo) :
    TasksStep w (.tick io) (w.fileSendTick io).1 := by
  unfold fileSendTick
  by_cases hbusy : w.send.busy = true
  swap
  · rw [if_pos hbusy]
    exact .keep (.refl w)
  rw [if_neg (not_not_intro hbusy)]
  by_cases hidle : w.send.state ≠ .active ∧ w.send.state ≠ .done
  · rw [if_pos hidle]
    exact .keep (.refl w)
  rw [if_neg hidle]
  by_cases hdone : w.send.state = .done
  · have hsent := quiet_sendTid w msgFileComplete w.send.tid (io.sendOk 0)
    rw [if_pos hdone, sendTid_eq] at *
    cases hok : io.sendOk 0 with
    | false => rw [hok] at hsent; exact .keep hsent
    | true =>
      rw [hok] at hsent
      exact .ofSend (hsent.sameTable.trans (sameTable_setSend _ _))
        (.tick io _ hbusy (Or.inr hdone) (Or.inr ⟨hbusy, rfl, rfl, Or.inr (Or.inr rfl)⟩))
  rw [if_neg hdone]
  -- neither idle nor done
  have hactive : w.send.state = .active := by
    by_contra hne
    exact hidle ⟨hne, hdone⟩
  obtain ⟨htable, hcase⟩ := tickLoop_spec io fileChunksPerRound 0 w hbusy hactive
  exact .ofSend htable (.tick io _ hbusy (Or.inl hactive) hcase)

/-! ### The entry points -/

/-- An announcement, by its kind. -/
theorem announced_spec (w : World) (io : Io) {text : Bytes} {kind : FileAnnKind}
    (hparse : fileParseAnnouncement text = some (kind, tid)) :
    TasksStep w (.announcement text io) (w.announced io kind tid) := by
  have haddr : kind ≠ .sendPending → kind ≠ .recvPending →
      (FileEvent.announcement text io).addressee = some tid := by
    intro h1 h2
    simp [FileEvent.addressee, hparse, h1, h2]
  cases kind with
  | sendPending =>
    rw [announced]
    split_ifs with h
    · exact .ofSend (sameTable_setSend _ _) (.assign text io tid hparse h.1 h.2)
    · exact .keep (.refl w)
  | recvPending => exact recvAnnounceIncoming_spec w io hparse
  | accepted => exact accepted_spec w (haddr (by simp) (by simp))
  | rejected =>
    exact rejected_spec w (haddr (by simp) (by simp)) (by simp [FileEvent.clearsSend, hparse])
  | cancelled =>
    exact cancelled_spec w io (haddr (by simp) (by simp)) (by simp [FileEvent.clearsSend, hparse])
  | cancelledDisc =>
    exact cancelled_spec w io (haddr (by simp) (by simp)) (by simp [FileEvent.clearsSend, hparse])
  | complete =>
    rw [announced]
    split_ifs with h
    · exact .clearSend (haddr (by simp) (by simp)) h.1
        (Or.inr ⟨by simp [FileEvent.confirmsSend, hparse], h.2⟩)
    · exact recvTaskComplete_spec w io (haddr (by simp) (by simp))

/-- A frame of the file protocol, by its type. -/
theorem fileFrame_spec (w : World) (io : Io) (type : UInt8) (payload : Bytes) :
    TasksStep w (.frame type payload io) (w.fileFrame io type payload) := by
  by_cases h4 : payload.length = 4
  · rw [fileFrame_control w io type h4, controlFrame]
    have haddr : (type = msgFileAccept ∨ type = msgFileReject ∨ type = msgFileCancel ∨
        type = msgFileComplete) →
        (FileEvent.frame type payload io).addressee = some (utilsReadU32Be payload) := by
      intro h
      simp only [FileEvent.addressee, if_pos h4, if_pos h]
    split_ifs with h1 h2 h3 h5
    · exact accepted_spec w (haddr (Or.inl h1))
    · exact rejected_spec w (haddr (Or.inr (Or.inl h2))) (by simp [FileEvent.clearsSend, h4, h2])
    · exact cancelled_spec w io (haddr (Or.inr (Or.inr (Or.inl h3))))
        (by simp [FileEvent.clearsSend, h4, h3])
    · exact recvTaskComplete_spec w io (haddr (Or.inr (Or.inr (Or.inr h5))))
    · exact .keep (.refl w)
  · by_cases hinit : type = msgFileInit
    · subst hinit
      rw [fileFrame_init w io h4]
      cases hfields : initFields payload with
      | none => exact .keep (.refl w)
      | some f => exact recvFillInit_spec w io hfields h4
    · by_cases hchunk : type = msgFileChunk ∧ 12 ≤ payload.length
      · obtain ⟨rfl, h12⟩ := hchunk
        rw [fileFrame_chunk w io h12]
        refine recvChunk_spec w io _ _ ?_
        simp only [FileEvent.addressee, if_neg h4]
        rw [if_pos ⟨trivial, h12⟩]
      · rw [fileFrame_other w io h4 hinit fun h => by
          by_contra hlen
          exact hchunk ⟨h, by omega⟩]
        exact .keep (.refl w)

/-- Clearing the send task if there is one, in whatever state. -/
theorem sameTable_ifSendTaskClear (w : World) :
    SameTable w (if w.send.busy then w.sendTaskClear else w) := by
  split_ifs
  · exact sameTable_sendTaskClear w
  · exact .refl w

/-- An error clears a send task without id. -/
theorem fileHandleError_spec (w : World) (io : Io) (code : Nat) :
    TasksStep w (.error code io) (w.fileHandleError io code) := by
  unfold fileHandleError
  by_cases h200 : code = errNoSuchUser
  · subst h200
    rw [if_pos rfl]
    split_ifs with h
    · exact .ofSend (sameTable_sendTaskClear w) (by simpa using SendStep.noSuchUser io h.1 h.2)
    · exact .keep (.refl w)
  rw [if_neg h200]
  by_cases h300 : code = errTransferState
  swap
  · rw [if_neg h300]
    exact .keep (.refl w)
  subst h300
  rw [if_pos rfl]
  dsimp only
  have hsend : SendStep w.send (.error errTransferState io)
      (if w.send.busy then w.sendTaskClear else w).send := by
    split_ifs with h
    · simpa using SendStep.transferState io h
    · exact .keep _
  have htable := sameTable_ifSendTaskClear w
  generalize (if w.send.busy then w.sendTaskClear else w) = w1 at hsend htable ⊢
  cases hactive : w1.recvTaskActive with
  | none => exact .ofSend htable hsend
  | some i =>
    obtain ⟨hbusy, hfp⟩ := recvTaskActive_eq_some hactive
    simp only [recv, htable.recv] at hbusy hfp
    have hrecv : (w1.recvTaskClear io i).tasks.recv =
        Function.update w.recv i RecvTask.zero := by
      rw [tasks_recvTaskClear, recv, htable.recv]
    refine ⟨?_, by simpa using hsend, fun hcoh => .carried fun j fh hj => ?_⟩
    · simp only [recv, recvSeq, tasks_recvTaskClear, htable.recv, htable.recvSeq]
      exact .clear _ i hbusy (Or.inr ⟨io, rfl⟩)
    · -- the cleared task was the only one with a file
      simp only [recv, hrecv, Function.update_apply] at hj
      split_ifs at hj with hji
      · exact absurd hj (by simp [RecvTask.zero])
      · exact absurd (hcoh.oneActive j i (by simp [hj]) hfp) hji

/-- The loop of `file_reset_all` zeroes the busy slots it visits. -/
theorem resetRecv_foldl (io : Slot → Io) (l : List Slot) (w : World) :
    (l.foldl (resetRecv io) w).tasks.send = w.tasks.send ∧
      (l.foldl (resetRecv io) w).tasks.recvSeq = w.tasks.recvSeq ∧
      ∀ i, (l.foldl (resetRecv io) w).tasks.recv i =
        if i ∈ l ∧ (w.tasks.recv i).busy = true then RecvTask.zero else w.tasks.recv i := by
  induction l generalizing w with
  | nil => simp
  | cons k l ih =>
    have hk : (resetRecv io w k).tasks.send = w.tasks.send ∧
        (resetRecv io w k).tasks.recvSeq = w.tasks.recvSeq ∧
        ∀ i, (resetRecv io w k).tasks.recv i =
          if i = k ∧ (w.tasks.recv i).busy = true then RecvTask.zero else w.tasks.recv i := by
      unfold resetRecv
      split_ifs with hbusy
      · refine ⟨by simp, by simp, fun i => ?_⟩
        by_cases hik : i = k
        · subst hik
          simp only [recv] at hbusy
          simp [hbusy]
        · simp [hik]
      · refine ⟨rfl, rfl, fun i => ?_⟩
        rw [if_neg]
        rintro ⟨rfl, hb⟩
        exact hbusy hb
    obtain ⟨hsend, hseq, hrecv⟩ := ih (resetRecv io w k)
    rw [List.foldl_cons]
    refine ⟨hsend.trans hk.1, hseq.trans hk.2.1, fun i => ?_⟩
    rw [hrecv i, hk.2.2 i]
    by_cases hik : i = k
    · subst hik
      by_cases hb : (w.tasks.recv i).busy = true <;> simp [hb, RecvTask.zero]
    · simp [hik]

/-- The reset clears all tasks. -/
theorem fileResetAll_spec (w : World) (io : Slot → Io) :
    TasksStep w (.reset io) (w.fileResetAll io) := by
  unfold fileResetAll
  dsimp only
  have hsend : SendStep w.send (.reset io)
      (if w.send.busy then w.sendTaskClear else w).send := by
    split_ifs with h
    · simpa using SendStep.reset io h
    · exact .keep _
  have htable := sameTable_ifSendTaskClear w
  generalize (if w.send.busy then w.sendTaskClear else w) = w1 at hsend htable ⊢
  obtain ⟨hs, hseq, hr⟩ := resetRecv_foldl io (List.finRange fileMaxRecvPending) w1
  have hrecv : ∀ i, ((List.finRange fileMaxRecvPending).foldl (resetRecv io) w1).recv i =
      if (w.recv i).busy then RecvTask.zero else w.recv i := by
    intro i
    rw [recv, hr i, htable.recv]
    simp [List.mem_finRange]
  refine ⟨?_, by simpa only [World.send, hs] using hsend, fun hcoh => .carried fun i fh hi => ?_⟩
  · simp only [recvSeq, hseq, htable.recvSeq]
    exact .reset io _ hrecv
  · -- a task with a file is busy, so it is gone
    rw [hrecv i] at hi
    split_ifs at hi with hbusy
    · exact absurd hi (by simp [RecvTask.zero])
    · exact absurd (hcoh.activeBusy i fh hi) hbusy

end World

/-- **Step specification.** Every event changes the tasks in one of the listed ways. -/
theorem fileStep_spec (w : World) (e : FileEvent) : w.TasksStep e (fileStep w e) := by
  cases e with
  | sendfile line io => exact w.fileCmdSendfile_spec io line
  | accept line io =>
    rw [fileStep, World.fileCmdAccept]
    cases harg : commandsParseTidArg (line.drop 7) with
    | none => exact .keep (World.quiet_print _ _)
    | some tid => exact w.acceptTid_spec io harg
  | reject line io =>
    rw [fileStep, World.fileCmdReject]
    cases harg : commandsParseTidArg (line.drop 7) with
    | none => exact .keep (World.quiet_print _ _)
    | some tid => exact w.rejectTid_spec io harg
  | cancel line io =>
    rw [fileStep, World.fileCmdCancel]
    cases harg : commandsParseTidArg (line.drop 7) with
    | none => exact .keep (World.quiet_print _ _)
    | some tid => exact w.cancelTid_spec io harg id
  | announcement text io =>
    rw [fileStep, World.fileHandleAnnouncement]
    cases hparse : fileParseAnnouncement text with
    | none => exact .keep (.refl w)
    | some res => exact w.announced_spec io hparse
  | frame type payload io => exact w.fileFrame_spec io type payload
  | error code io => exact w.fileHandleError_spec io code
  | tick io => exact w.fileSendTick_spec io
  | reset io => exact w.fileResetAll_spec io

end TCPClient
