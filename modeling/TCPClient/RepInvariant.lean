import TCPClient.ReceivedFile
import TCPClient.SendInvariant

namespace TCPClient

open Octets

/-!
# The representation invariant

`RepInvariant` is what `file.c` may rely on about `g_send` and `g_recv` whenever it is entered.
The facts about the send task are those of `SendInvariant`, those about the bitmap and the
counter of an open receive task come with its file (`ReceivedFile`); what is left are the fields
of the receive tasks that are not open, and the sequence numbers.
-/

/-- What holds of the two task tables between any two calls into the module. -/
structure RepInvariant (t : Tasks) : Prop where
  oneOpen : ∀ i j, (t.recv i).fp.isSome = true → (t.recv j).fp.isSome = true → i = j
  idle : ∀ i, (t.recv i).busy = false → t.recv i = RecvTask.zero
  pending : ∀ i, (t.recv i).busy = true → (t.recv i).fp = none →
    (t.recv i).bitmap = none ∧ (t.recv i).saveName = [] ∧ (t.recv i).received = 0
  opened : ∀ i, (t.recv i).fp.isSome = true →
    (t.recv i).busy = true ∧ (t.recv i).inited = true ∧ 0 < (t.recv i).size ∧
      (t.recv i).saveName ≠ [] ∧ (t.recv i).received ≤ (t.recv i).size
  bitmap : ∀ i, (t.recv i).fp.isSome = true →
    (t.recv i).bitmapLen = fileChunkCount (t.recv i).size fileChunkDataMax / 8 + 1 ∧
      ∃ b, (t.recv i).bitmap = some b ∧ b.length = (t.recv i).bitmapLen
  seqs : ∀ i j, (t.recv i).busy = true → (t.recv j).busy = true →
    (t.recv i).seq = (t.recv j).seq → i = j
  sendIdle : t.send.busy = false → t.send = SendTask.zero
  sendBusy : t.send.busy = true → t.send.fp.isSome = true ∧ 0 < t.send.size
  unsent : t.send.state = .pendingTid ∨ t.send.state = .pending → t.send.sent = 0
  active : t.send.state = .active →
    t.send.sent < t.send.size ∧ fileChunkDataMax ∣ t.send.sent
  done : t.send.state = .done ∨ t.send.state = .waitComplete → t.send.sent = t.send.size

/-! ### Receive tasks -/

/-- A free slot is zeroed, and a task with an open file has a size. -/
structure RecvOk (t : RecvTask) : Prop where
  idle : t.busy = false → t = RecvTask.zero
  opened : t.fp.isSome = true → 0 < t.size

theorem RecvOk.zero : RecvOk RecvTask.zero := ⟨fun _ => rfl, by simp [RecvTask.zero]⟩

/-- **Step lemma** for the receive table. -/
theorem RecvOk.step {r r' : Table} {seq seq' : Nat} {e : FileEvent}
    (hcoh : CoherentTable r) (h : ∀ i, RecvOk (r i)) (hs : TableStep r seq e r' seq') (i : Slot) :
    RecvOk (r' i) := by
  have hupdate : ∀ (k : Slot) (t : RecvTask), RecvOk t → RecvOk (Function.update r k t i) :=
    fun k t ht => (Function.forall_update_iff r fun _ => RecvOk).mpr ⟨ht, fun j _ => h j⟩ i
  cases hs with
  | keep => exact h i
  | clear _ k hbusy haddr => exact hupdate k _ .zero
  | reset io _ hr =>
    rw [hr i]
    split_ifs
    · exact .zero
    · exact h i
  | announce text io tid k hparse hfree =>
    exact hupdate k _ ⟨by simp [RecvTask.announced], by simp [RecvTask.announced, RecvTask.zero]⟩
  | fill payload io f k hfields hlen hwaits hfirst =>
    -- a task that waits for its INIT frame has no file yet
    have hfp : (r k).fp = none := by
      by_contra hne
      obtain ⟨fh, hfp⟩ := Option.ne_none_iff_exists'.mp hne
      exact absurd (hwaits.2.symm.trans (hcoh.activeInited k fh hfp)) (by simp)
    exact hupdate k _ ⟨by simp [RecvTask.filled, hwaits.1], by simp [RecvTask.filled, hfp]⟩
  | opened _ k saveName path haddr hbusy hinit hsize hnone hname hpath =>
    -- `/accept` refuses an empty file before it opens one
    exact hupdate k _ ⟨by simp [RecvTask.opened, hbusy], fun _ => hsize⟩
  | written _ k fh offset len haddr hbusy hfp hspan =>
    exact hupdate k _ ⟨by simp [RecvTask.written, hbusy], fun _ => (h k).opened (by simp [hfp])⟩

theorem Reachable.recvOk {w : World} (h : Reachable w) (i : Slot) : RecvOk (w.recv i) := by
  induction h generalizing i with
  | init disk => exact .zero
  | step e hw ih => exact RecvOk.step hw.coherent.toCoherentTable ih (fileStep_spec _ e).table i

/-! ### Sequence numbers -/

def FileEvent.isAnnouncement : FileEvent → Bool
  | .announcement _ _ => true
  | _ => false

/-- The counter has not passed `n`, busy tasks have numbers below the counter, no two the
    same. -/
structure SeqsOk (n : Nat) (r : Table) (seq : Nat) : Prop where
  bound : seq ≤ n
  below : ∀ i, (r i).busy = true → (r i).seq < seq
  distinct : ∀ i j, (r i).busy = true → (r j).busy = true → (r i).seq = (r j).seq → i = j

/-- A step that leaves no task busy that was not, and no number changed. -/
theorem SeqsOk.of_descends {n : Nat} {r r' : Table} {seq : Nat} (h : SeqsOk n r seq)
    (hd : ∀ i, (r' i).busy = true → (r i).busy = true ∧ (r' i).seq = (r i).seq) :
    SeqsOk n r' seq := by
  refine ⟨h.bound, fun i hi => ?_, fun i j hi hj hij => ?_⟩
  · rw [(hd i hi).2]
    exact h.below i (hd i hi).1
  · rw [(hd i hi).2, (hd j hj).2] at hij
    exact h.distinct i j (hd i hi).1 (hd j hj).1 hij

/-- **Step lemma** for the sequence numbers, as long as the counter does not wrap around. -/
theorem SeqsOk.step {n : Nat} {r r' : Table} {seq seq' : Nat} {e : FileEvent} (h : SeqsOk n r seq)
    (hs : TableStep r seq e r' seq') (hn : n + 1 < 2 ^ 64 ∨ e.isAnnouncement = false) :
    SeqsOk (n + if e.isAnnouncement then 1 else 0) r' seq' := by
  have hweaken : ∀ r' : Table, SeqsOk n r' seq →
      SeqsOk (n + if e.isAnnouncement then 1 else 0) r' seq :=
    fun r' h' => ⟨le_trans h'.bound (Nat.le_add_right _ _), h'.below, h'.distinct⟩
  have hupdate : ∀ (k : Slot) (t : RecvTask),
      (t.busy = true → (r k).busy = true ∧ t.seq = (r k).seq) →
      SeqsOk (n + if e.isAnnouncement then 1 else 0) (Function.update r k t) seq := by
    intro k t ht
    refine hweaken _ (h.of_descends fun i hi => ?_)
    by_cases hik : i = k
    · subst hik
      rw [Function.update_self] at hi ⊢
      exact ht hi
    · rw [Function.update_of_ne hik] at hi ⊢
      exact ⟨hi, rfl⟩
  cases hs with
  | keep => exact hweaken _ h
  | clear _ k hbusy haddr => exact hupdate k _ (by simp [RecvTask.zero])
  | reset io _ hr =>
    refine hweaken _ (h.of_descends fun i hi => ?_)
    rw [hr i] at hi ⊢
    split_ifs at hi ⊢ with hb
    · exact absurd hi (by simp [RecvTask.zero])
    · exact absurd hi hb
  | announce text io tid k hparse hfree =>
    have hbound := h.bound
    have hn' : n + 1 < 2 ^ 64 := hn.resolve_right (by simp [FileEvent.isAnnouncement])
    have hseq : (seq + 1) % 2 ^ 64 = seq + 1 := Nat.mod_eq_of_lt (by omega)
    rw [hseq]
    -- the new number is the counter, above all others
    have hother : ∀ i, i ≠ k → (Function.update r k (RecvTask.announced tid seq) i).busy = true →
        (r i).busy = true ∧ (r i).seq < seq := by
      intro i hik hi
      rw [Function.update_of_ne hik] at hi
      exact ⟨hi, h.below i hi⟩
    constructor
    · simp [FileEvent.isAnnouncement, hbound]
    · intro i hi
      by_cases hik : i = k
      · subst hik
        simp [RecvTask.announced]
      · rw [Function.update_of_ne hik]
        exact Nat.lt_succ_of_lt (hother i hik hi).2
    · intro i j hi hj hij
      -- the new task against itself, against another one twice, and two others
      by_cases hik : i = k <;> by_cases hjk : j = k
      · rw [hik, hjk]
      · rw [hik, Function.update_self, Function.update_of_ne hjk] at hij
        have := (hother j hjk hj).2
        simp only [RecvTask.announced] at hij
        omega
      · rw [hjk, Function.update_self, Function.update_of_ne hik] at hij
        have := (hother i hik hi).2
        simp only [RecvTask.announced] at hij
        omega
      · rw [Function.update_of_ne hik, Function.update_of_ne hjk] at hij
        exact h.distinct i j (hother i hik hi).1 (hother j hjk hj).1 hij
  | fill payload io f k hfields hlen hwaits hfirst => exact hupdate k _ fun hb => ⟨hb, rfl⟩
  | opened _ k saveName path haddr hbusy hinit hsize hnone hname hpath =>
    exact hupdate k _ fun hb => ⟨hb, rfl⟩
  | written _ k fh offset len haddr hbusy hfp hspan => exact hupdate k _ fun hb => ⟨hb, rfl⟩

/-- **Run lemma** for the sequence numbers. -/
theorem SeqsOk.run {n : Nat} {w : World} (h : SeqsOk n w.recv w.recvSeq)
    (events : List FileEvent) (hn : n + events.countP FileEvent.isAnnouncement < 2 ^ 64) :
    SeqsOk (n + events.countP FileEvent.isAnnouncement) (fileRun w events).recv
      (fileRun w events).recvSeq := by
  induction events generalizing n w with
  | nil => exact h
  | cons e events ih =>
    rw [List.countP_cons] at hn ⊢
    have hstep := h.step (fileStep_spec w e).table (by
      cases he : e.isAnnouncement
      · exact Or.inr rfl
      · rw [he, if_pos rfl] at hn
        exact Or.inl (by omega))
    have hgo := ih (w := fileStep w e) hstep (by omega)
    rwa [Nat.add_assoc, Nat.add_comm (ite _ _ _)] at hgo

/-! ### The invariant -/

/-- **Representation invariant.** It holds in every state that fewer than `2^64` announcements
    and any other events lead to, whatever fails on the way. -/
theorem fileRun_repInvariant (disk : Bytes → Option Bytes) (events : List FileEvent)
    (hcount : events.countP FileEvent.isAnnouncement < 2 ^ 64) :
    RepInvariant (fileRun (World.init disk) events).tasks := by
  have hw : Reachable (fileRun (World.init disk) events) := (Reachable.init disk).run events
  have hstart : SeqsOk 0 (World.init disk).recv (World.init disk).recvSeq :=
    ⟨le_refl 0, fun i hi => absurd hi (by simp [World.init, RecvTask.zero]),
      fun i j hi => absurd hi (by simp [World.init, RecvTask.zero])⟩
  have hseqs := hstart.run events (by rwa [Nat.zero_add])
  generalize fileRun (World.init disk) events = w at hw hseqs ⊢
  have hcoh := hw.coherent.toCoherentTable
  have hsend := hw.sendOk
  have hopen : ∀ i, (w.recv i).fp.isSome = true → ∃ fh, (w.recv i).fp = some fh :=
    fun i hi => Option.isSome_iff_exists.mp hi
  constructor
  · exact hcoh.oneActive
  · exact fun i => (hw.recvOk i).idle
  · exact fun i _ hfp => ⟨hcoh.pendingBitmap i hfp, hcoh.pendingName i hfp,
      hcoh.pendingReceived i hfp⟩
  · intro i hi
    obtain ⟨fh, hfp⟩ := hopen i hi
    exact ⟨hcoh.activeBusy i fh hfp, hcoh.activeInited i fh hfp, (hw.recvOk i).opened hi,
      (hcoh.activePath i fh hfp).1, (hw.filesOk i fh hfp).received_le⟩
  · intro i hi
    obtain ⟨fh, hfp⟩ := hopen i hi
    obtain ⟨b, hb, hlen, -⟩ := (hw.filesOk i fh hfp).bitmap
    exact ⟨(hw.filesOk i fh hfp).bitmapLen, b, hb, hlen⟩
  · exact hseqs.distinct
  · exact hsend.idle
  · intro hbusy
    have hfp : w.tasks.send.fp = _ := hsend.file hbusy
    exact ⟨by simp [hfp], (hsend.size hbusy).1⟩
  · exact hsend.unsent
  · exact hsend.active
  · exact hsend.done

/-- The invariant behind an announcement and a `/sendfile`. -/
theorem fileRun_repInvariant_two :
    RepInvariant (fileRun (World.init fun _ => none)
      [.announcement ((Announcement.incoming (utf8 "bob") (utf8 "a") 1).text 7) Io.ok,
        .sendfile (utf8 "/sendfile bob a") ⟨true, true, 1, true, true, by decide⟩]).tasks :=
  fileRun_repInvariant (fun _ => none) _ (by decide)

end TCPClient
