import TCPClient.Client
import TCPClient.Transfer

namespace TCPClient

open Octets Cover

/-!
# A transfer among others

Between `/accept` and the completion signal the file module is called for many other reasons: other
transfers are offered, refused and cancelled, a file is sent, lines are typed.  `FileEvent.Beside`
says which calls are no business of a transfer, and `transfer_among_others` that any number of them
in any order makes no difference to its file, neither while it is received nor later.
-/

/-! ### Calls beside a transfer -/

/-- The call is no business of the receive task of `tid`: it is not addressed to it and offers no
    other file under its id, and it is not one of the two that end the open task without an id. -/
def FileEvent.Beside (tid : Nat) : FileEvent → Prop
  | .announcement text _ =>
    ∀ kind, fileParseAnnouncement text = some (kind, tid) → kind = .sendPending
  | .error code _ => code ≠ errTransferState
  | .reset _ => False
  | e => e.addressee ≠ some tid

/-- The payload of a CHUNK frame for transfer `tid`. -/
def chunkOf (tid : Nat) (frame : UInt8 × Bytes) : Option Bytes :=
  if frame.1 = msgFileChunk ∧ 12 ≤ frame.2.length ∧ utilsReadU32Be frame.2 = tid then some frame.2
  else none

def FileEvent.chunkFor (tid : Nat) : FileEvent → Option Bytes
  | .frame type payload _ => chunkOf tid (type, payload)
  | _ => none

variable {tid : Nat} {e : FileEvent}

theorem FileEvent.Beside.not_addressed (h : e.Beside tid) : e.addressee ≠ some tid := by
  cases e with
  | announcement text io =>
    intro haddr
    rw [FileEvent.addressee] at haddr
    cases hparse : fileParseAnnouncement text with
    | none => rw [hparse] at haddr; exact absurd haddr (by simp)
    | some res =>
      obtain ⟨kind, tid'⟩ := res
      rw [hparse] at haddr
      dsimp only at haddr
      split_ifs at haddr with hkind
      obtain rfl := Option.some.inj haddr
      exact hkind (Or.inl (h kind hparse))
  | error code io => simp [FileEvent.addressee]
  | reset io => exact h.elim
  | _ => exact h

/-- A chunk for a transfer is its business. -/
theorem FileEvent.Beside.chunkFor_eq (h : e.Beside tid) : e.chunkFor tid = none := by
  cases e with
  | frame type payload io =>
    have haddr := h.not_addressed
    rw [FileEvent.chunkFor, chunkOf]
    split_ifs with hchunk
    · obtain ⟨htype, h12, htid⟩ := hchunk
      have h4 : payload.length ≠ 4 := by
        have : 12 ≤ payload.length := h12
        omega
      rw [FileEvent.addressee, if_neg h4, if_pos ⟨htype, h12⟩] at haddr
      exact absurd (congrArg some htid) haddr
    · rfl
  | _ => rfl

/-- A chunk for the transfer, as a call. -/
theorem FileEvent.eq_of_chunkFor {payload : Bytes} (h : e.chunkFor tid = some payload) :
    ∃ io, e = .frame msgFileChunk payload io := by
  cases e with
  | frame type payload' io =>
    rw [FileEvent.chunkFor, chunkOf] at h
    split_ifs at h with hchunk
    obtain rfl := Option.some.inj h
    exact ⟨io, by rw [← hchunk.1]⟩
  | _ => exact absurd h (by simp [FileEvent.chunkFor])

/-! ### One call -/

/-- A call beside an open transfer leaves its task alone, and brings no second task of its id. -/
theorem TableStep.beside {r r' : Table} {seq seq' : Nat} (hs : TableStep r seq e r' seq')
    (hcoh : CoherentTable r) (h : e.Beside tid) {i : Slot} {fh : FileHandle}
    (hfp : (r i).fp = some fh) (htid : (r i).tid = tid) :
    r' i = r i ∧
      ∀ j, (r' j).busy = true ∧ (r' j).tid = tid → (r j).busy = true ∧ (r j).tid = tid := by
  have haddr := h.not_addressed
  have hbusy := hcoh.activeBusy i fh hfp
  have hupdate {k : Slot} {t : RecvTask} (hki : k ≠ i)
      (ht : t.busy = true ∧ t.tid = tid → (r k).busy = true ∧ (r k).tid = tid) :
      Function.update r k t i = r i ∧ ∀ j, (Function.update r k t j).busy = true ∧
        (Function.update r k t j).tid = tid → (r j).busy = true ∧ (r j).tid = tid := by
    refine ⟨Function.update_of_ne (Ne.symm hki) t r, fun j => ?_⟩
    by_cases hjk : j = k
    · subst hjk
      rw [Function.update_self]
      exact ht
    · rw [Function.update_of_ne hjk]
      exact id
  cases hs with
  | keep => exact ⟨rfl, fun _ => id⟩
  | clear _ k _ hk =>
    refine hupdate ?_ fun ht => absurd ht.1 (by simp [RecvTask.zero])
    rintro rfl
    rcases hk with hk | ⟨io, rfl⟩
    · exact haddr (hk.trans (congrArg some htid))
    · exact h rfl
  | reset => exact h.elim
  | announce text io tid' k hparse hfree =>
    refine hupdate (fun hki => ?_) fun ht => ?_
    · rw [hki, hbusy] at hfree
      exact absurd hfree (by simp)
    · -- the offer has another id
      obtain rfl : tid' = tid := ht.2
      exact absurd (h _ hparse) (by simp)
  | fill payload io f k _ _ hwaits =>
    refine hupdate (fun hki => ?_) id
    have hinited := hcoh.activeInited i fh hfp
    rw [← hki, hwaits.2] at hinited
    exact absurd hinited (by simp)
  | opened _ k saveName path _ _ _ _ hnone =>
    rw [hnone i hbusy] at hfp
    exact absurd hfp (by simp)
  | written _ k fh' offset len hk _ hfp' =>
    obtain rfl := hcoh.oneActive k i (by simp [hfp']) (by simp [hfp])
    exact absurd (hk.trans (congrArg some htid)) haddr

/-- The writes into the file of an open task that an event leaves as it was. -/
theorem FileStep.fileWrites_of_kept {w w' : World} (hs : FileStep w w')
    (hcoh : CoherentTable w.recv) {i : Slot} {fh : FileHandle} (hfp : (w.recv i).fp = some fh)
    (hkept : w'.recv i = w.recv i) : w'.fileWrites fh.path = w.fileWrites fh.path := by
  cases hs with
  | carried h => exact (h i fh (by rw [hkept, hfp])).2.2
  | opened k saveName path hrecv hfree => exact absurd hfp (by simp [hfree i])
  | written k fh' offset data hfp' hspan hrecv =>
    -- the task that wrote is this one, and its counter has grown
    obtain rfl := hcoh.oneActive k i (by simp [hfp']) (by simp [hfp])
    rw [hrecv, Function.update_self] at hkept
    have hgrown : (w.recv k).received + data.length = (w.recv k).received :=
      congrArg RecvTask.received hkept
    have hempty : data.length = 0 := by omega
    simp [fileRecvSpanCheck, hempty] at hspan

/-- The first task of an id stays the first while no other comes to have it. -/
theorem World.recvTaskFind_of_imp {w w' : World} {i : Slot} (hfind : w.recvTaskFind tid = some i)
    (hkept : w'.recv i = w.recv i)
    (himp : ∀ j, (w'.recv j).busy = true ∧ (w'.recv j).tid = tid →
      (w.recv j).busy = true ∧ (w.recv j).tid = tid) : w'.recvTaskFind tid = some i := by
  obtain ⟨hi, before, after, hslots, hbefore⟩ := List.find?_eq_some_iff_append.mp hfind
  refine List.find?_eq_some_iff_append.mpr ⟨by rw [hkept]; exact hi, before, after, hslots, ?_⟩
  intro j hj
  have hnot := hbefore j hj
  simp only [Bool.not_eq_true', Bool.and_eq_false_iff, beq_eq_false_iff_ne] at hnot ⊢
  by_contra hmatch
  have := himp j (by simpa using hmatch)
  simp [this] at hnot

/-- **Step lemma.** -/
theorem Receiving.beside {c : Bytes} {i : Slot} {path : Bytes} {ws : List Write} {w : World}
    (h : Receiving c tid i path ws w) (hw : Reachable w) (hnew : (ws.map Prod.fst).Nodup)
    (he : e.Beside tid) : Receiving c tid i path ws (fileStep w e) := by
  have hcoh := hw.coherent.toCoherentTable
  have hspec := fileStep_spec w e
  cases h with
  | active fh hfind hfp hpath hsize hwrites =>
    subst hpath
    obtain ⟨hkept, himp⟩ := hspec.table.beside hcoh he hfp (World.recvTaskFind_eq_some hfind).2
    refine .active fh (World.recvTaskFind_of_imp hfind hkept himp) ?_ rfl ?_ ?_
    · rw [hkept, hfp]
    · rw [hkept, hsize]
    · rw [(hspec.files hcoh).fileWrites_of_kept hcoh hfp hkept, hwrites]
  | gone hdup => exact absurd hnew hdup

/-! ### Any number of calls -/

variable {c : Bytes}

/-- A chunk of the sender, as a call. -/
theorem fileStep_chunk (htid : tid < 2 ^ 32) (hlen : c.length < 2 ^ 63) {p : Write}
    (hp : p ∈ chunks c) (w : World) (io : Io) :
    fileStep w (.frame msgFileChunk (chunkPayload tid p) io) = w.recvChunk io tid p.1 p.2 := by
  have hshort := (piece_spec fileChunkDataMax_pos hp).2.2.1
  rw [← deliver_chunkFrame htid hlen hp, deliver, protocolParse_chunkFrame tid hshort]

/-- **Run lemma.** The chunks that come among other calls are received as if they came alone. -/
theorem Receiving.among {i : Slot} {path : Bytes} {ws ws' : List Write} {w : World}
    (h : Receiving c tid i path ws w) (hw : Reachable w) (htid : tid < 2 ^ 32)
    (hlen : c.length < 2 ^ 63) {calls : List FileEvent}
    (hcalls : ∀ e ∈ calls, e.Beside tid ∨ (e.chunkFor tid).isSome ∧ e.AllIo Io.FilesWork)
    (hchunks : calls.filterMap (FileEvent.chunkFor tid) = ws'.map (chunkPayload tid))
    (hmem : ∀ p ∈ ws', p ∈ chunks c) (hnew : ((ws ++ ws').map Prod.fst).Nodup) :
    Receiving c tid i path (ws ++ ws') (fileRun w calls) := by
  induction calls generalizing w ws ws' with
  | nil =>
    obtain rfl : ws' = [] := List.map_eq_nil_iff.mp hchunks.symm
    rwa [List.append_nil]
  | cons e calls ih =>
    have hrest := fun e' he' => hcalls e' (List.mem_cons_of_mem e he')
    rcases hcalls e List.mem_cons_self with hbeside | ⟨hchunk, hio⟩
    · rw [List.filterMap_cons_none hbeside.chunkFor_eq] at hchunks
      have hold := hnew.sublist ((List.sublist_append_left ws ws').map Prod.fst)
      exact ih (h.beside hw hold hbeside) (.step e hw) hrest hchunks hmem hnew
    · obtain ⟨payload, hpayload⟩ := Option.isSome_iff_exists.mp hchunk
      obtain ⟨io, rfl⟩ := FileEvent.eq_of_chunkFor hpayload
      rw [List.filterMap_cons_some hpayload] at hchunks
      obtain ⟨p, ws'', rfl, rfl, hws''⟩ := List.map_eq_cons_iff.mp hchunks.symm
      have hp := hmem p List.mem_cons_self
      have hnext := h.chunk hw hlen hp hio
      rw [← fileStep_chunk htid hlen hp] at hnext
      rw [List.append_cons] at hnew ⊢
      exact ih hnext (.step _ hw) hrest hws''.symm
        (fun q hq => hmem q (List.mem_cons_of_mem p hq)) hnew

/-! ### Behind the transfer -/

/-- The file of a transfer that is over: nobody has it open. -/
structure World.Saved (path content : Bytes) (w : World) : Prop where
  disk : w.disk path = some content
  closed : ∀ i, w.openPath i ≠ some path

/-- **Step lemma.** No call touches a file that is not open. -/
theorem World.Saved.step {path content : Bytes} {w : World} (h : w.Saved path content)
    (hw : Reachable w) (e : FileEvent) : (fileStep w e).Saved path content := by
  have hcoh' := (Reachable.step e hw).coherent.toCoherentTable
  have hother {p : Bytes} (hp : w.disk p = none) : path ≠ p := by
    rintro rfl
    rw [h.disk] at hp
    exact absurd hp (by simp)
  have hopen {i : Slot} {p : Bytes} (hi : w.openPath i = some p) : path ≠ p := by
    rintro rfl
    exact h.closed i hi
  have hfolder := fileStep_folder hw.coherent.toCoherentTable hw.filesOk e
  generalize e.keeps w = kept at hfolder
  cases hfolder with
  | still hstill => exact ⟨by rw [hstill.disk, h.disk], fun i => hstill.opened i ▸ h.closed i⟩
  | refused p _ hfree hdisk _ hsame =>
    exact ⟨by rw [hdisk path (hother hfree), h.disk], fun i => hsame i ▸ h.closed i⟩
  | created i p _ hfree _ hdisk hnew =>
    refine ⟨by rw [hdisk path (hother hfree), h.disk], fun j hj => ?_⟩
    exact hother hfree (openPath_unique hcoh' hnew hj).2
  | written i p _ hold hdisk hnew =>
    refine ⟨by rw [hdisk path (hopen hold), h.disk], fun j hj => ?_⟩
    exact hopen hold (openPath_unique hcoh' hnew hj).2
  | discarded i p _ hold hdisk _ hnone =>
    exact ⟨by rw [hdisk path (hopen hold), h.disk], fun j => by rw [hnone]; simp⟩
  | kept i p content' _ hold hdisk hnone =>
    refine ⟨?_, fun j => by rw [hnone]; simp⟩
    rw [hdisk, Function.update_of_ne (hopen hold), h.disk]

/-- **Run lemma.** -/
theorem World.Saved.run {path content : Bytes} {w : World} (h : w.Saved path content)
    (hw : Reachable w) (calls : List FileEvent) : (fileRun w calls).Saved path content := by
  induction calls generalizing w with
  | nil => exact h
  | cons e calls ih => exact ih (h.step hw e) (.step e hw)

/-- Completion when every chunk has come, and none twice. -/
theorem Receiving.saved {i : Slot} {path : Bytes} {ws : List Write} {w : World}
    (h : Receiving c tid i path ws w) (hw : Reachable w) (hws : ws.Perm (chunks c)) {io : Io}
    (hio : io.FilesWork) : (w.recvTaskComplete io tid).Saved path c := by
  have hcoh := hw.coherent.toCoherentTable
  have hnew : (ws.map Prod.fst).Nodup :=
    (hws.map Prod.fst).nodup_iff.mpr (nodup_pieces fileChunkDataMax_pos c)
  refine ⟨?_, fun j => ?_⟩
  · rw [h.complete hw (fun p hp => hws.mem_iff.mp hp) hio,
      if_pos ⟨hnew, fun p hp => hws.mem_iff.mpr hp⟩]
  cases h with
  | gone hdup => exact absurd hnew hdup
  | active fh hfind hfp hpath =>
    subst hpath
    have htasks : (w.recvTaskComplete io tid).recv = Function.update w.recv i RecvTask.zero := by
      rw [World.recvTaskComplete, hfind]
      dsimp only
      rw [if_pos (by simp [hfp]), World.recv, World.tasks_recvTaskFinish]
    rw [World.openPath, htasks]
    by_cases hji : j = i
    · subst hji
      simp [RecvTask.zero]
    · -- only one file was open
      rw [Function.update_of_ne hji]
      have hnone := World.openPath_of_ne hcoh (World.openPath_eq_some.mpr ⟨fh, hfp, rfl⟩) hji
      rw [World.openPath] at hnone
      simp [hnone]

/-! ### The result -/

theorem ReceiverStart.tid_lt (r : ReceiverStart) : r.tid < 2 ^ 32 := by
  obtain ⟨_, digits, -, -, hdigits⟩ := commandsParseTidArg_eq_some.mp r.names
  have hle := hdigits.le
  omega

/-- A completion signal that the client's own send task does not wait for. -/
theorem CompletionSignal.completes {io : Io} (h : CompletionSignal tid io e) {w : World}
    (hother : ∀ text, e = .announcement text io →
      ¬ (w.send.busy = true ∧ w.send.tid = tid ∧ w.send.state = .waitComplete)) :
    fileStep w e = w.recvTaskComplete io tid := by
  rcases h.fileStep_eq w with hcomplete | ⟨hbusy, htid, hstate, -⟩
  · exact hcomplete
  cases h with
  | frame payload h4 hread => rw [fileStep, World.fileFrame_control w io _ h4, hread]; rfl
  | announcement text => exact absurd ⟨hbusy, htid, hstate⟩ (hother text rfl)

/-- An accepted transfer whose chunks each come once, among other calls, is saved. -/
theorem ReceiverStart.saved (hlen : c.length < 2 ^ 63) (r : ReceiverStart)
    (hsize : r.size = c.length) {calls : List FileEvent}
    (hcalls : ∀ e ∈ calls, e.Beside r.tid ∨ (e.chunkFor r.tid).isSome ∧ e.AllIo Io.FilesWork)
    {ws : List Write} (hws : ws.Perm (chunks c))
    (hchunks : calls.filterMap (FileEvent.chunkFor r.tid) = ws.map (chunkPayload r.tid))
    {signal : FileEvent} {io : Io} (hsignal : CompletionSignal r.tid io signal)
    (hio : io.FilesWork) (hother : ∀ text, signal = .announcement text io →
      ¬ ((fileRun r.start calls).send.busy = true ∧ (fileRun r.start calls).send.tid = r.tid ∧
        (fileRun r.start calls).send.state = .waitComplete)) :
    (fileStep (fileRun r.start calls) signal).Saved r.handle.path c := by
  obtain ⟨hstart, hfind, hwrites⟩ := r.start_spec
  have hnew : (([] ++ ws).map Prod.fst).Nodup :=
    (hws.map Prod.fst).nodup_iff.mpr (nodup_pieces fileChunkDataMax_pos c)
  have hrecv : Receiving c r.tid r.slot r.handle.path [] r.start :=
    .active r.handle hfind r.accepted rfl (hstart.trans hsize) hwrites
  have hall := hrecv.among r.reachable_start r.tid_lt hlen hcalls hchunks
    (fun p hp => hws.mem_iff.mp hp) hnew
  rw [hsignal.completes hother]
  exact hall.saved (r.reachable_start.run calls) hws hio

/-- **A transfer among others.** An accepted transfer whose chunks each come once and are written,
    in whatever order and among whatever calls beside it, is kept byte for byte by its completion
    signal, if the client's own send task does not take that for itself, and stays as it is
    whatever the client does afterwards, whatever fails in it. -/
theorem transfer_among_others (hlen : c.length < 2 ^ 63) (r : ReceiverStart)
    (hsize : r.size = c.length) {calls : List FileEvent}
    (hcalls : ∀ e ∈ calls, e.Beside r.tid ∨ (e.chunkFor r.tid).isSome ∧ e.AllIo Io.FilesWork)
    {ws : List Write} (hws : ws.Perm (chunks c))
    (hchunks : calls.filterMap (FileEvent.chunkFor r.tid) = ws.map (chunkPayload r.tid))
    {signal : FileEvent} {io : Io} (hsignal : CompletionSignal r.tid io signal)
    (hio : io.FilesWork) (hother : ∀ text, signal = .announcement text io →
      ¬ ((fileRun r.start calls).send.busy = true ∧ (fileRun r.start calls).send.tid = r.tid ∧
        (fileRun r.start calls).send.state = .waitComplete))
    (later : List FileEvent) :
    (fileRun (fileStep (fileRun r.start calls) signal) later).disk r.handle.path = some c := by
  have hsaved := r.saved hlen hsize hcalls hws hchunks hsignal hio hother
  exact (hsaved.run (.step signal (r.reachable_start.run calls)) later).disk

/-- While transfer 7 is received, eve offers another file, and it is cancelled. -/
def amongOthers : List FileEvent :=
  [.announcement ((Announcement.incoming (utf8 "eve") (utf8 "b") 1).text 9) Io.ok,
    .frame msgFileChunk (chunkPayload 7 (0, [65])) Io.ok, .cancel (utf8 "/cancel 9") Io.ok]

theorem transfer_among_others_one_byte :
    (fileRun (fileStep (fileRun oneByteReceiver.start amongOthers)
      (.frame msgFileComplete (utilsWriteU32Be 7) Io.ok))
        [.reset fun _ => { Io.ok with removeOk := false }]).disk (utf8 "downloads/a") =
      some [65] := by
  have hother : fileParseAnnouncement ((Announcement.incoming (utf8 "eve") (utf8 "b") 1).text 9) =
      some (.recvPending, 9) := by decide +kernel
  refine transfer_among_others (c := [65]) (by decide) oneByteReceiver (by decide +kernel)
    (fun e he => ?_) (.refl _) (by decide +kernel)
    (.frame (utilsWriteU32Be 7) (by decide +kernel) (by decide +kernel)) ⟨rfl, rfl, rfl, rfl⟩
    (fun text h => absurd h (by simp)) _
  simp only [amongOthers, List.mem_cons, List.not_mem_nil, or_false] at he
  rcases he with rfl | rfl | rfl
  · refine .inl fun kind h => ?_
    rw [hother] at h
    have hid : 9 = 7 := congrArg Prod.snd (Option.some.inj h)
    exact absurd hid (by decide)
  · exact .inr ⟨by decide +kernel, rfl, rfl, rfl, rfl⟩
  · exact .inl (show commandsParseTidArg (utf8 " 9") ≠ some 7 by decide +kernel)

end TCPClient
