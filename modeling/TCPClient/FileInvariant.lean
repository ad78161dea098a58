import TCPClient.FileSpec

namespace TCPClient

/-!
# What holds in every reachable state

`Coherent` collects the facts about the two task tables that the results on single transfers
rest on.  It is proved by going through the step specification of `FileSpec`.
-/

/-- A send task without an id has id 0, every id fits 32 bits, and a task that is not accepted
    yet has sent nothing. -/
structure CoherentSend (t : SendTask) : Prop where
  pendingTid : t.state = .pendingTid → t.tid = 0
  tidBound : t.tid < 2 ^ 32
  unsent : t.state = .pendingTid ∨ t.state = .pending →
    t.sent = 0 ∧ ∃ path, t.fp = some ⟨path, 0⟩

structure Coherent (w : World) : Prop extends CoherentTable w.recv, CoherentSend w.send

/-- What `CoherentTable` asks of one task. -/
structure CoherentTask (t : RecvTask) : Prop where
  pending : t.fp = none → t.saveName = [] ∧ t.received = 0 ∧ t.bitmap = none
  active : ∀ fh, t.fp = some fh → t.busy = true ∧ t.inited = true ∧
    t.saveName ≠ [] ∧ fileJoinPath fileDownloadDir t.saveName 512 = some fh.path

/-- A table is coherent when its tasks are and at most one of them has an open file. -/
theorem coherentTable_iff {r : Table} :
    CoherentTable r ↔ (∀ i, CoherentTask (r i)) ∧
      ∀ i j, (r i).fp.isSome = true → (r j).fp.isSome = true → i = j := by
  constructor
  · intro h
    refine ⟨fun i => ⟨fun hfp => ?_, fun fh hfp => ?_⟩, h.oneActive⟩
    · exact ⟨h.pendingName i hfp, h.pendingReceived i hfp, h.pendingBitmap i hfp⟩
    · exact ⟨h.activeBusy i fh hfp, h.activeInited i fh hfp, h.activePath i fh hfp⟩
  · rintro ⟨htask, hone⟩
    exact ⟨fun i hfp => ((htask i).pending hfp).1, fun i hfp => ((htask i).pending hfp).2.1,
      fun i hfp => ((htask i).pending hfp).2.2,
      fun i fh hfp => ((htask i).active fh hfp).1, fun i fh hfp => ((htask i).active fh hfp).2.1,
      fun i fh hfp => ((htask i).active fh hfp).2.2, hone⟩

theorem CoherentTask.of_pending {t : RecvTask} (hfp : t.fp = none) (hname : t.saveName = [])
    (hreceived : t.received = 0) (hbitmap : t.bitmap = none) : CoherentTask t :=
  ⟨fun _ => ⟨hname, hreceived, hbitmap⟩, fun fh h => absurd (hfp.symm.trans h) (by simp)⟩

theorem CoherentTask.of_active {t : RecvTask} {fh : FileHandle} (hfp : t.fp = some fh)
    (hbusy : t.busy = true) (hinit : t.inited = true)
    (hpath : t.saveName ≠ [] ∧ fileJoinPath fileDownloadDir t.saveName 512 = some fh.path) :
    CoherentTask t := by
  refine ⟨fun h => absurd (h.symm.trans hfp) (by simp), fun fh' h => ?_⟩
  obtain rfl : fh = fh' := Option.some.inj (hfp.symm.trans h)
  exact ⟨hbusy, hinit, hpath⟩

/-- A slot gets a coherent task; a task with an open file, only when no other slot has one. -/
theorem CoherentTable.update {r : Table} (h : CoherentTable r) (i : Slot) {t : RecvTask}
    (ht : CoherentTask t) (hothers : t.fp.isSome = true → ∀ j, j ≠ i → (r j).fp = none) :
    CoherentTable (Function.update r i t) := by
  obtain ⟨htask, hone⟩ := coherentTable_iff.mp h
  rw [coherentTable_iff]
  constructor
  · intro j
    rw [Function.update_apply]
    split_ifs
    · exact ht
    · exact htask j
  · intro j k hj hk
    rw [Function.update_apply] at hj hk
    -- an open file next to that of the new task there is not
    split_ifs at hj hk with hji hki hki
    · rw [hji, hki]
    · exact absurd hk (by simp [hothers hj k hki])
    · exact absurd hj (by simp [hothers hk j hji])
    · exact hone j k hj hk

/-- **Step lemma** for the receive table. -/
theorem CoherentTable.step {r r' : Table} {seq seq' : Nat} {e : FileEvent}
    (h : CoherentTable r) (hs : TableStep r seq e r' seq') : CoherentTable r' := by
  cases hs with
  | keep => exact h
  | clear _ i hbusy haddr =>
    exact h.update i (.of_pending rfl rfl rfl rfl) (by simp [RecvTask.zero])
  | reset io _ hr =>
    obtain ⟨htask, hone⟩ := coherentTable_iff.mp h
    have hopen : ∀ i, (r' i).fp.isSome = true → (r i).fp.isSome = true := by
      intro i hi
      rw [hr i] at hi
      split_ifs at hi
      · exact absurd hi (by simp [RecvTask.zero])
      · exact hi
    refine coherentTable_iff.mpr ⟨fun i => ?_, fun i j hi hj => hone i j (hopen i hi) (hopen j hj)⟩
    rw [hr i]
    split_ifs
    · exact .of_pending rfl rfl rfl rfl
    · exact htask i
  | announce text io tid i hparse hfree =>
    exact h.update i (.of_pending rfl rfl rfl rfl) (by simp [RecvTask.announced, RecvTask.zero])
  | fill payload io f i hfields hlen hwaits hfirst =>
    -- a task that waits for its INIT frame has no file yet
    have hfp : (r i).fp = none := by
      by_contra hne
      obtain ⟨fh, hfp⟩ := Option.ne_none_iff_exists'.mp hne
      exact absurd (hwaits.2.symm.trans (h.activeInited i fh hfp)) (by simp)
    exact h.update i (.of_pending hfp (h.pendingName i hfp) (h.pendingReceived i hfp)
      (h.pendingBitmap i hfp)) (by simp [RecvTask.filled, hfp])
  | opened _ i saveName path haddr hbusy hinit hsize hnone hname hpath =>
    refine h.update i (.of_active rfl hbusy hinit ⟨hname, hpath⟩) fun _ j _ => ?_
    cases hj : (r j).fp with
    | none => rfl
    | some fh => exact absurd (hnone j (h.activeBusy j fh hj)) (by simp [hj])
  | written _ i fh offset len haddr hbusy hfp hspan =>
    have htask : CoherentTask ((r i).written fh offset len) :=
      .of_active rfl hbusy (h.activeInited i fh hfp) (h.activePath i fh hfp)
    refine h.update i htask fun _ j hne => ?_
    by_contra hj
    exact hne (h.oneActive j i (Option.isSome_iff_ne_none.mpr hj) (by simp [hfp]))

theorem CoherentSend.zero : CoherentSend SendTask.zero where
  pendingTid _ := rfl
  tidBound := by decide
  unsent := by simp [SendTask.zero]

/-- **Step lemma** for the send task. -/
theorem CoherentSend.step {t t' : SendTask} {e : FileEvent} (h : CoherentSend t)
    (hs : SendStep t e t') : CoherentSend t' := by
  cases hs with
  | keep => exact h
  | submit line io target filename size hfree hsize =>
    refine ⟨fun _ => rfl, ?_, fun _ => ⟨rfl, filename, rfl⟩⟩
    exact Nat.two_pow_pos 32
  | submitLost line io hfree => exact .zero
  | assign text io tid hparse hbusy hstate =>
    exact ⟨fun hst => absurd hst (by simp), fileParseAnnouncement_tid_lt hparse,
      fun _ => h.unsent (Or.inl hstate)⟩
  | accept _ haddr hbusy hstate =>
    exact ⟨fun hst => absurd hst (by simp), h.tidBound, fun hst => absurd hst (by simp)⟩
  | clear _ haddr hbusy hwhy => exact .zero
  | noSuchUser io hbusy hstate => exact .zero
  | transferState io hbusy => exact .zero
  | tick io _ hbusy hstate ht' =>
    rcases ht' with rfl | ⟨-, htid, -, hst'⟩
    · exact .zero
    · have hlate : t'.state ≠ .pendingTid ∧ t'.state ≠ .pending := by
        rcases hst' with h' | h' | h' <;> rw [h'] <;> decide
      refine ⟨fun hst => absurd hst hlate.1, htid ▸ h.tidBound, fun hst => ?_⟩
      rcases hst with hst | hst
      · exact absurd hst hlate.1
      · exact absurd hst hlate.2
  | reset io hbusy => exact .zero

/-- **Step lemma.** Every event keeps the tasks coherent. -/
theorem Coherent.step {w : World} (h : Coherent w) (e : FileEvent) : Coherent (fileStep w e) := by
  obtain ⟨htable, hsend, -⟩ := fileStep_spec w e
  exact ⟨h.toCoherentTable.step htable, h.toCoherentSend.step hsend⟩

/-- **Every reachable state is coherent.** -/
theorem Reachable.coherent {w : World} (h : Reachable w) : Coherent w := by
  refine h.invariant (fun disk => ?_) (fun w e hw => hw.step e)
  refine ⟨?_, .zero⟩
  constructor <;> simp [World.init, RecvTask.zero]

end TCPClient
