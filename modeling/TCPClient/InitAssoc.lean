import TCPClient.FileInvariant

namespace TCPClient

open Octets

/-!
# INIT frames and the tasks they fill

An INIT frame carries no id.  The client gives it to the oldest task that still waits for one,
in the hope that announcements and INIT frames arrive in one order.  Two theorems say when the
hope is justified:

* `initsMatch_of_pairRun` — announcement and INIT frame adjacent, the INIT possibly malformed;
* `initsMatch_of_initRun` — INIT frames in the order of the announcements, but later.

Both runs are relations between what has been announced and the state reached, with a guard
for the one step at which the association can go wrong.
-/

/-! ### Arrivals -/

/-- An incoming transfer: its announcement and the payload of its INIT frame. -/
structure Arrival where
  tid : Nat
  text : Bytes
  announces : fileParseAnnouncement text = some (.recvPending, tid)
  payload : Bytes
  io : Io

namespace Arrival

def announcement (a : Arrival) : FileEvent := .announcement a.text a.io

def init (a : Arrival) : FileEvent := .frame msgFileInit a.payload a.io

end Arrival

/-- Everything that can happen between incoming announcements and INIT frames. -/
def FileEvent.Between : FileEvent → Prop
  | .announcement text _ => ∀ tid, fileParseAnnouncement text ≠ some (.recvPending, tid)
  | .frame type _ _ => type ≠ msgFileInit
  | _ => True

/-- Every filled task has the fields of the INIT frame of its own id. -/
def InitsMatch (arrivals : List Arrival) (w : World) : Prop :=
  ∀ i, (w.recv i).busy = true → (w.recv i).inited = true →
    ∃ a ∈ arrivals, a.tid = (w.recv i).tid ∧
      initFields a.payload =
        some ⟨(w.recv i).sender, (w.recv i).filename, (w.recv i).size⟩

instance (arrivals : List Arrival) (w : World) : Decidable (InitsMatch arrivals w) := by
  unfold InitsMatch
  infer_instance

/-! ### What the three kinds of events do to the table -/

/-- What becomes of a task while no announcement or INIT frame is meant for it: it is gone, or
    it has its id, its number and its INIT fields as before. -/
def RecvTask.Descends (t t' : RecvTask) : Prop :=
  t'.busy = true → t.busy = true ∧ t'.inited = t.inited ∧ t'.tid = t.tid ∧ t'.seq = t.seq ∧
    t'.sender = t.sender ∧ t'.filename = t.filename ∧ t'.size = t.size

theorem RecvTask.Descends.refl (t : RecvTask) : t.Descends t :=
  fun h => ⟨h, rfl, rfl, rfl, rfl, rfl, rfl⟩

theorem RecvTask.Descends.waiting {t t' : RecvTask} (h : t.Descends t') (hw : t'.Waiting) :
    t.Waiting ∧ t'.tid = t.tid ∧ t'.seq = t.seq := by
  obtain ⟨hbusy, hinit, htid, hseq, -⟩ := h hw.1
  exact ⟨⟨hbusy, hinit ▸ hw.2⟩, htid, hseq⟩

section TableStep

variable {r r' : Table} {seq seq' : Nat}

theorem TableStep.between {e : FileEvent} (hs : TableStep r seq e r' seq') (he : e.Between) :
    (∀ i, (r i).Descends (r' i)) ∧ seq' = seq := by
  have hupdate : ∀ {k : Slot} {t : RecvTask}, (r k).Descends t →
      ∀ i, (r i).Descends (Function.update r k t i) := fun ht =>
    (Function.forall_update_iff r fun i => (r i).Descends).mpr ⟨ht, fun i _ => .refl (r i)⟩
  cases hs with
  | keep => exact ⟨fun i => .refl _, rfl⟩
  | clear _ k hbusy haddr => exact ⟨hupdate fun h => absurd h (by simp [RecvTask.zero]), rfl⟩
  | reset io _ hr =>
    refine ⟨fun i => ?_, rfl⟩
    rw [hr i]
    split_ifs
    · exact fun h => absurd h (by simp [RecvTask.zero])
    · exact .refl _
  | announce text io tid k hparse hfree => exact absurd hparse (he tid)
  | fill payload io f k hfields hlen hwaits hfirst => exact absurd rfl he
  | opened _ k saveName path haddr hbusy hinit hsize hnone hname hpath =>
    exact ⟨hupdate fun h => ⟨hbusy, rfl, rfl, rfl, rfl, rfl, rfl⟩, rfl⟩
  | written _ k fh offset len haddr hbusy hfp hspan =>
    exact ⟨hupdate fun h => ⟨hbusy, rfl, rfl, rfl, rfl, rfl, rfl⟩, rfl⟩

/-- An announcement makes a new task, or finds the table full. -/
theorem TableStep.arrival {a : Arrival} (hs : TableStep r seq a.announcement r' seq') :
    (r' = r ∧ seq' = seq) ∨
      ∃ i, (r i).busy = false ∧ r' = Function.update r i (RecvTask.announced a.tid seq) ∧
        seq' = (seq + 1) % 2 ^ 64 := by
  have haddr : a.announcement.addressee = none := by
    simp [Arrival.announcement, FileEvent.addressee, a.announces]
  unfold Arrival.announcement at hs haddr
  cases hs with
  | keep => exact Or.inl ⟨rfl, rfl⟩
  | clear _ k hbusy h =>
    rcases h with h | ⟨io, h⟩
    · rw [haddr] at h
      exact absurd h (by simp)
    · exact absurd h (by simp)
  | announce text io tid i hparse hfree =>
    have htid : a.tid = tid := by
      rw [a.announces] at hparse
      simpa using hparse
    exact Or.inr ⟨i, hfree, by rw [htid], rfl⟩
  | opened _ k saveName path h hbusy hinit hsize hnone hname hpath =>
    rw [haddr] at h
    exact absurd h (by simp)
  | written _ k fh offset len h hbusy hfp hspan =>
    rw [haddr] at h
    exact absurd h (by simp)

/-- An INIT frame fills the oldest task that waits, or nothing. -/
theorem TableStep.init {a : Arrival} (hs : TableStep r seq a.init r' seq') :
    seq' = seq ∧ (r' = r ∨
      ∃ f i, initFields a.payload = some f ∧ (r i).Waiting ∧
        (∀ j, (r j).Waiting → (r i).seq ≤ (r j).seq) ∧
        r' = Function.update r i ((r i).filled f)) := by
  have haddr : a.init.addressee = none := by
    simp [Arrival.init, FileEvent.addressee]
  unfold Arrival.init at hs haddr
  cases hs with
  | keep => exact ⟨rfl, Or.inl rfl⟩
  | clear _ k hbusy h =>
    rcases h with h | ⟨io, h⟩
    · rw [haddr] at h
      exact absurd h (by simp)
    · exact absurd h (by simp)
  | fill payload io f i hfields hlen hwaits hfirst =>
    exact ⟨rfl, Or.inr ⟨f, i, hfields, hwaits, hfirst, rfl⟩⟩
  | opened _ k saveName path h hbusy hinit hsize hnone hname hpath =>
    rw [haddr] at h
    exact absurd h (by simp)
  | written _ k fh offset len h hbusy hfp hspan =>
    rw [haddr] at h
    exact absurd h (by simp)

end TableStep

/-! ### Keeping the association -/

namespace InitsMatch

variable {arrivals : List Arrival} {w w' : World}

theorem start (disk : Bytes → Option Bytes) : InitsMatch arrivals (World.init disk) :=
  fun i hbusy => absurd hbusy (by simp [World.init, RecvTask.zero])

theorem descends (h : InitsMatch arrivals w) (hd : ∀ i, (w.recv i).Descends (w'.recv i)) :
    InitsMatch arrivals w' := by
  intro i hbusy hinit
  obtain ⟨hbusy', hinit', htid, -, hsender, hfile, hsize⟩ := hd i hbusy
  rw [htid, hsender, hfile, hsize]
  exact h i hbusy' (hinit'.symm.trans hinit)

/-- One arrival more to look for a task's INIT frame in. -/
theorem more (h : InitsMatch arrivals w) (a : Arrival) : InitsMatch (arrivals ++ [a]) w := by
  intro i hbusy hinit
  obtain ⟨b, hb, hrest⟩ := h i hbusy hinit
  exact ⟨b, List.mem_append_left _ hb, hrest⟩

/-- A task that waits has no fields that could be wrong. -/
theorem update_waiting (h : InitsMatch arrivals w) {i : Slot} {t : RecvTask}
    (ht : t.inited = false) (hw' : w'.recv = Function.update w.recv i t) :
    InitsMatch arrivals w' := by
  intro j hbusy hinit
  rw [hw'] at hbusy hinit ⊢
  by_cases hj : j = i
  · subst hj
    rw [Function.update_self, ht] at hinit
    exact absurd hinit (by simp)
  · rw [Function.update_of_ne hj] at hbusy hinit ⊢
    exact h j hbusy hinit

/-- A task that is filled from its own INIT frame. -/
theorem update_filled (h : InitsMatch arrivals w) {i : Slot} {a : Arrival} {f : InitFields}
    (ha : a ∈ arrivals) (hf : initFields a.payload = some f) (htid : (w.recv i).tid = a.tid)
    (hw' : w'.recv = Function.update w.recv i ((w.recv i).filled f)) :
    InitsMatch arrivals w' := by
  intro j hbusy hinit
  rw [hw'] at hbusy hinit ⊢
  by_cases hj : j = i
  · subst hj
    rw [Function.update_self]
    exact ⟨a, ha, htid.symm, hf⟩
  · rw [Function.update_of_ne hj] at hbusy hinit ⊢
    exact h j hbusy hinit

end InitsMatch

/-! ### Adjacent pairs -/

/-- The runs in which every announcement is followed at once by its INIT frame; `pending` is the
    transfer announced last while its INIT frame is still to come.  `guard` restricts when an
    announcement may come. -/
inductive PairRun (guard : World → Arrival → Prop) :
    List Arrival → Option Arrival → World → Prop where
  | start (disk : Bytes → Option Bytes) : PairRun guard [] none (World.init disk)
  | announce {arrivals : List Arrival} {w : World} (a : Arrival)
      (h : PairRun guard arrivals none w) (hfresh : ∀ b ∈ arrivals, b.tid ≠ a.tid)
      (hguard : guard w a) :
      PairRun guard (arrivals ++ [a]) (some a) (fileStep w a.announcement)
  | init {arrivals : List Arrival} {a : Arrival} {w : World}
      (h : PairRun guard arrivals (some a) w) : PairRun guard arrivals none (fileStep w a.init)
  | other {arrivals : List Arrival} {w : World} (e : FileEvent) (he : e.Between)
      (h : PairRun guard arrivals none w) : PairRun guard arrivals none (fileStep w e)

/-- When a transfer with a well-formed INIT frame is announced, no task waits for one. -/
def NoneWaits (w : World) (a : Arrival) : Prop :=
  initFields a.payload ≠ none → ∀ i, ¬ (w.recv i).Waiting

/-- Between announcement and INIT frame only the announced task waits. -/
private def OnlyPending (pending : Option Arrival) (arrivals : List Arrival) (w : World) : Prop :=
  ∀ a, pending = some a → a ∈ arrivals ∧
    (initFields a.payload ≠ none → ∀ i, (w.recv i).Waiting → (w.recv i).tid = a.tid)

/-- **Adjacent pairs.** When no task waits at the announcement of a transfer with a well-formed
    INIT frame, every filled task has the fields of its own INIT frame, in every state of the
    run. -/
theorem initsMatch_of_pairRun {arrivals : List Arrival} {pending : Option Arrival} {w : World}
    (h : PairRun NoneWaits arrivals pending w) : InitsMatch arrivals w := by
  have key : InitsMatch arrivals w ∧ OnlyPending pending arrivals w := by
    induction h with
    | start disk => exact ⟨.start disk, fun a ha => absurd ha (by simp)⟩
    | @announce arrivals w a h hfresh hguard ih =>
      rcases (fileStep_spec w a.announcement).table.arrival with ⟨hr, -⟩ | ⟨i, hfree, hr, -⟩
      · -- the table was full
        refine ⟨(ih.1.more a).descends fun i => ?_, ?_⟩
        · rw [hr]
          exact .refl _
        · rintro b hb
          obtain rfl : a = b := by simpa using hb
          refine ⟨by simp, fun hok i hw => ?_⟩
          rw [hr] at hw
          exact absurd hw (hguard hok i)
      · -- a new task, the only one that waits
        refine ⟨(ih.1.more a).update_waiting rfl hr, ?_⟩
        rintro b hb
        obtain rfl : a = b := by simpa using hb
        refine ⟨by simp, fun hok j hw => ?_⟩
        rw [hr] at hw ⊢
        by_cases hj : j = i
        · subst hj
          rw [Function.update_self]
          rfl
        · rw [Function.update_of_ne hj] at hw
          exact absurd hw (hguard hok j)
    | @init arrivals a w h ih =>
      obtain ⟨ha, honly⟩ := ih.2 a rfl
      refine ⟨?_, fun b hb => absurd hb (by simp)⟩
      obtain ⟨-, hr | ⟨f, i, hf, hwaits, -, hr⟩⟩ := (fileStep_spec w a.init).table.init
      · exact ih.1.descends fun i => by
          rw [hr]
          exact .refl _
      · exact ih.1.update_filled ha hf (honly (by simp [hf]) i hwaits) hr
    | other e he h ih =>
      exact ⟨ih.1.descends ((fileStep_spec _ e).table.between he).1,
        fun a ha => absurd ha (by simp)⟩
  exact key.1

/-- Bob offers a file of one byte; the size in his INIT frame is not a number. -/
def malformedArrival : Arrival where
  tid := 1
  text := (Announcement.incoming (utf8 "bob") (utf8 "a") 1).text 1
  announces := by decide +kernel
  payload := utf8 "bob" ++ 0 :: utf8 "a" ++ 0 :: utf8 "x" ++ [0]
  io := Io.ok

/-- Eve offers a file of two bytes. -/
def eveArrival : Arrival where
  tid := 2
  text := (Announcement.incoming (utf8 "eve") (utf8 "b") 2).text 2
  announces := by decide +kernel
  payload := utf8 "eve" ++ 0 :: utf8 "b" ++ 0 :: utf8 "2" ++ [0]
  io := Io.ok

/-- A client that got Bob's announcement and INIT frame. -/
def afterMalformed : World :=
  fileStep (fileStep (World.init fun _ => none) malformedArrival.announcement)
    malformedArrival.init

/-- When Bob's transfer is rejected before Eve's comes, Eve's task gets its own fields. -/
theorem initsMatch_of_pairRun_rejected :
    InitsMatch ([malformedArrival] ++ [eveArrival])
      (fileStep (fileStep (fileStep afterMalformed (.reject (utf8 "/reject 1") Io.ok))
        eveArrival.announcement) eveArrival.init) := by
  have hpair : PairRun NoneWaits [malformedArrival] none afterMalformed :=
    .init (.announce malformedArrival (.start _) (by simp) fun h => absurd (by decide +kernel) h)
  have hrejected := hpair.other (.reject (utf8 "/reject 1") Io.ok) trivial
  exact initsMatch_of_pairRun (.init (.announce eveArrival hrejected
    (by simp [malformedArrival, eveArrival]) fun _ => by decide +kernel))

/-- Otherwise Bob's task gets Eve's name, file and size. -/
theorem malformed_init_misleads :
    PairRun (fun _ _ => True) ([malformedArrival] ++ [eveArrival]) none
        (fileStep (fileStep afterMalformed eveArrival.announcement) eveArrival.init) ∧
      ¬ InitsMatch ([malformedArrival] ++ [eveArrival])
        (fileStep (fileStep afterMalformed eveArrival.announcement) eveArrival.init) := by
  have hpair : PairRun (fun _ _ => True) [malformedArrival] none afterMalformed :=
    .init (.announce malformedArrival (.start _) (by simp) trivial)
  exact ⟨.init (.announce eveArrival hpair (by simp [malformedArrival, eveArrival]) trivial),
    by decide +kernel⟩

/-! ### INIT frames that lag behind -/

/-- The runs in which the INIT frames come in the order of the announcements, at any later time;
    `queue` are the transfers whose INIT frame is still to come.  `guard` restricts when an INIT
    frame may come. -/
inductive InitRun (guard : World → Arrival → Prop) :
    List Arrival → List Arrival → World → Prop where
  | start (disk : Bytes → Option Bytes) : InitRun guard [] [] (World.init disk)
  | announce {arrivals queue : List Arrival} {w : World} (a : Arrival)
      (h : InitRun guard arrivals queue w) (hfresh : ∀ b ∈ arrivals, b.tid ≠ a.tid)
      (hformed : initFields a.payload ≠ none) :
      InitRun guard (arrivals ++ [a]) (queue ++ [a]) (fileStep w a.announcement)
  | init {arrivals queue : List Arrival} {a : Arrival} {w : World}
      (h : InitRun guard arrivals (a :: queue) w) (hguard : guard w a) :
      InitRun guard arrivals queue (fileStep w a.init)
  | other {arrivals queue : List Arrival} {w : World} (e : FileEvent) (he : e.Between)
      (h : InitRun guard arrivals queue w) : InitRun guard arrivals queue (fileStep w e)

/-- When an INIT frame comes, its own task waits for it, or no task waits. -/
def OwnOrNone (w : World) (a : Arrival) : Prop :=
  (∃ i, (w.recv i).Waiting ∧ (w.recv i).tid = a.tid) ∨ ∀ i, ¬ (w.recv i).Waiting

/-- While a task waits, a well-formed INIT frame fills one, the oldest. -/
theorem fileStep_init_of_waiting {w : World} {a : Arrival} (hf : initFields a.payload ≠ none)
    {j : Slot} (hj : (w.recv j).Waiting) :
    ∃ f i, initFields a.payload = some f ∧ (w.recv i).Waiting ∧
      (∀ j, (w.recv j).Waiting → (w.recv i).seq ≤ (w.recv j).seq) ∧
      (fileStep w a.init).recv = Function.update w.recv i ((w.recv i).filled f) := by
  obtain ⟨f, hf⟩ := Option.ne_none_iff_exists'.mp hf
  have h4 : a.payload.length ≠ 4 := by
    have := six_le_of_initFields hf
    omega
  have hstep : fileStep w a.init = w.recvFillInit f := by
    rw [Arrival.init, fileStep, World.fileFrame_init w a.io h4, hf]
  cases hbest : w.recvInitBest with
  | none => exact absurd hj (w.recvInitBest_spec.2 hbest j)
  | some i =>
    obtain ⟨hwaits, hfirst⟩ := w.recvInitBest_spec.1 i hbest
    refine ⟨f, i, hf, hwaits, hfirst, ?_⟩
    rw [hstep, World.recvFillInit, hbest]
    rfl

/-- The waiting tasks are those of the queue: one task for an id, numbered in the order of the
    queue. -/
structure Queued (arrivals queue : List Arrival) (w : World) : Prop where
  announced : ∀ a ∈ queue, a ∈ arrivals
  formed : ∀ a ∈ queue, initFields a.payload ≠ none
  distinct : (arrivals.map Arrival.tid).Nodup
  waiting : ∀ i, (w.recv i).Waiting → ∃ a ∈ queue, a.tid = (w.recv i).tid
  one : ∀ i j, (w.recv i).Waiting → (w.recv j).Waiting → (w.recv i).tid = (w.recv j).tid → i = j
  order : queue.Pairwise fun a b => ∀ i j, (w.recv i).Waiting → (w.recv i).tid = a.tid →
    (w.recv j).Waiting → (w.recv j).tid = b.tid → (w.recv i).seq < (w.recv j).seq
  counter : w.recvSeq ≤ arrivals.length
  numbered : ∀ i, (w.recv i).Waiting → (w.recv i).seq < w.recvSeq

/-- Different 32-bit ids cannot be so many that the 64-bit counter wraps. -/
theorem length_le_of_distinct {arrivals : List Arrival}
    (h : (arrivals.map Arrival.tid).Nodup) : arrivals.length ≤ 2 ^ 32 := by
  have hsub : (arrivals.map Arrival.tid).toFinset ⊆ Finset.range (2 ^ 32) := by
    intro tid htid
    obtain ⟨a, -, rfl⟩ := List.mem_map.mp (List.mem_toFinset.mp htid)
    exact Finset.mem_range.mpr (fileParseAnnouncement_tid_lt a.announces)
  have hcard := Finset.card_le_card hsub
  rwa [List.toFinset_card_of_nodup h, List.length_map, Finset.card_range] at hcard

namespace Queued

variable {arrivals queue : List Arrival} {w : World}

/-- Later events can only make waiting tasks go away. -/
theorem descends {w' : World} (h : Queued arrivals queue w)
    (hd : ∀ i, (w.recv i).Descends (w'.recv i)) (hseq : w'.recvSeq = w.recvSeq) :
    Queued arrivals queue w' where
  announced := h.announced
  formed := h.formed
  distinct := h.distinct
  waiting := by
    intro i hi
    obtain ⟨hw, htid, -⟩ := (hd i).waiting hi
    rw [htid]
    exact h.waiting i hw
  one := by
    intro i j hi hj hij
    obtain ⟨hwi, htidi, -⟩ := (hd i).waiting hi
    obtain ⟨hwj, htidj, -⟩ := (hd j).waiting hj
    exact h.one i j hwi hwj (by rw [← htidi, ← htidj, hij])
  order := by
    refine h.order.imp fun {a b} hab i j hi hai hj hbj => ?_
    obtain ⟨hwi, htidi, hseqi⟩ := (hd i).waiting hi
    obtain ⟨hwj, htidj, hseqj⟩ := (hd j).waiting hj
    rw [hseqi, hseqj]
    exact hab i j hwi (htidi.symm.trans hai) hwj (htidj.symm.trans hbj)
  counter := by
    rw [hseq]
    exact h.counter
  numbered := by
    intro i hi
    obtain ⟨hw, -, hseqi⟩ := (hd i).waiting hi
    rw [hseqi, hseq]
    exact h.numbered i hw

/-- What waits after an announcement: what waited before, and at most one task with the new id
    and the next number. -/
theorem waiting_announced {a : Arrival} (h : Queued arrivals queue w)
    (hfresh : ∀ b ∈ arrivals, b.tid ≠ a.tid) {w' : World} (hw' : w' = fileStep w a.announcement) :
    (w.recvSeq ≤ w'.recvSeq ∧ w'.recvSeq ≤ w.recvSeq + 1) ∧
    (∀ j, (w'.recv j).Waiting →
      ((w.recv j).Waiting ∧ (w.recv j).tid ≠ a.tid ∧ w'.recv j = w.recv j) ∨
      ((w'.recv j).tid = a.tid ∧ (w'.recv j).seq = w.recvSeq ∧ w'.recvSeq = w.recvSeq + 1)) ∧
    (∀ j k, (w'.recv j).Waiting → (w'.recv k).Waiting → (w'.recv j).tid = a.tid →
      (w'.recv k).tid = a.tid → j = k) := by
  -- no task waits under the new id
  have hnew : ∀ j, (w.recv j).Waiting → (w.recv j).tid ≠ a.tid := by
    intro j hj htid
    obtain ⟨b, hb, hbj⟩ := h.waiting j hj
    exact hfresh b (h.announced b hb) (hbj.trans htid)
  subst hw'
  rcases (fileStep_spec w a.announcement).table.arrival with ⟨hr, hseq⟩ | ⟨i, -, hr, hseq⟩
  · rw [hr, hseq]
    exact ⟨by omega, fun j hj => Or.inl ⟨hj, hnew j hj, rfl⟩,
      fun j k hj _ htid _ => absurd htid (hnew j hj)⟩
  · -- fewer transfers than ids, so the counter does not wrap
    have hcount : w.recvSeq + 1 < 2 ^ 64 := by
      have hlen := length_le_of_distinct h.distinct
      have hcounter := h.counter
      omega
    rw [Nat.mod_eq_of_lt hcount] at hseq
    have hself : ∀ j, (fileStep w a.announcement).recv j =
        if j = i then RecvTask.announced a.tid w.recvSeq else w.recv j := by
      intro j
      rw [hr, Function.update_apply]
    refine ⟨by omega, fun j hj => ?_, fun j k hj hk hjt hkt => ?_⟩
    · by_cases hji : j = i
      · right
        rw [hself j, if_pos hji]
        exact ⟨rfl, rfl, hseq⟩
      · left
        rw [hself j, if_neg hji] at hj ⊢
        exact ⟨hj, hnew j hj, rfl⟩
    · have hslot : ∀ m, ((fileStep w a.announcement).recv m).Waiting →
          ((fileStep w a.announcement).recv m).tid = a.tid → m = i := by
        intro m hm hmt
        by_contra hmi
        rw [hself m, if_neg hmi] at hm hmt
        exact hnew m hm hmt
      rw [hslot j hj hjt, hslot k hk hkt]

/-- The transfer announced joins the queue, also when the table was full. -/
theorem announce {a : Arrival} (h : Queued arrivals queue w)
    (hfresh : ∀ b ∈ arrivals, b.tid ≠ a.tid) (hformed : initFields a.payload ≠ none) :
    Queued (arrivals ++ [a]) (queue ++ [a]) (fileStep w a.announcement) := by
  obtain ⟨hcounter, hcases, huniq⟩ := h.waiting_announced hfresh rfl
  generalize fileStep w a.announcement = w' at hcounter hcases huniq ⊢
  have hlast : ∀ {P : Arrival → Prop}, (∀ b ∈ queue, P b) → P a → ∀ b ∈ queue ++ [a], P b := by
    intro P hq ha b hb
    rcases List.mem_append.mp hb with hb | hb
    · exact hq b hb
    · rw [List.mem_singleton.mp hb]
      exact ha
  constructor
  · exact hlast (fun b hb => List.mem_append_left _ (h.announced b hb)) (by simp)
  · exact hlast h.formed hformed
  · rw [List.map_append, List.nodup_append]
    refine ⟨h.distinct, by simp, ?_⟩
    simp only [List.map_cons, List.map_nil, List.mem_singleton, List.mem_map]
    rintro _ ⟨b, hb, rfl⟩ _ rfl
    exact hfresh b hb
  · intro i hi
    rcases hcases i hi with ⟨hw, -, heq⟩ | ⟨htid, -⟩
    · obtain ⟨b, hb, hbi⟩ := h.waiting i hw
      exact ⟨b, List.mem_append_left _ hb, by rw [heq, hbi]⟩
    · exact ⟨a, by simp, htid.symm⟩
  · intro i j hi hj hij
    rcases hcases i hi with ⟨hwi, hni, heqi⟩ | ⟨htidi, -⟩
    · rcases hcases j hj with ⟨hwj, -, heqj⟩ | ⟨htidj, -⟩
      · rw [heqi, heqj] at hij
        exact h.one i j hwi hwj hij
      · rw [heqi, htidj] at hij
        exact absurd hij hni
    · exact huniq i j hi hj htidi (hij.symm.trans htidi)
  · rw [List.pairwise_append]
    refine ⟨?_, List.pairwise_singleton _ _, fun b hb c hc i j hi hib hj hjc => ?_⟩
    · refine h.order.imp_of_mem fun {b c} hb hc hbc i j hi hib hj hjc => ?_
      have hne : ∀ d ∈ queue, d.tid ≠ a.tid := fun d hd => hfresh d (h.announced d hd)
      rcases hcases i hi with ⟨hwi, -, heqi⟩ | ⟨htidi, -⟩
      · rcases hcases j hj with ⟨hwj, -, heqj⟩ | ⟨htidj, -⟩
        · rw [heqi] at hib ⊢
          rw [heqj] at hjc ⊢
          exact hbc i j hwi hib hwj hjc
        · exact absurd (hjc.symm.trans htidj) (hne c hc)
      · exact absurd (hib.symm.trans htidi) (hne b hb)
    · -- the new task has the largest number
      obtain rfl := List.mem_singleton.mp hc
      have hnb : b.tid ≠ c.tid := hfresh b (h.announced b hb)
      rcases hcases i hi with ⟨hwi, -, heqi⟩ | ⟨htidi, -⟩
      · rcases hcases j hj with ⟨-, hnj, heqj⟩ | ⟨-, hseqj, -⟩
        · rw [heqj] at hjc
          exact absurd hjc hnj
        · rw [heqi, hseqj]
          exact h.numbered i hwi
      · exact absurd (hib.symm.trans htidi) hnb
  · have hold := h.counter
    rw [List.length_append, List.length_singleton]
    omega
  · intro i hi
    rcases hcases i hi with ⟨hwi, -, heqi⟩ | ⟨-, hseqi, hnext⟩
    · have hold := h.numbered i hwi
      rw [heqi]
      omega
    · omega

/-- The INIT frame at the head of the queue meets its own task, if any. -/
theorem tid_of_init {a : Arrival} (h : Queued arrivals (a :: queue) w) (hguard : OwnOrNone w a)
    {k : Slot} (hk : (w.recv k).Waiting)
    (hfirst : ∀ j, (w.recv j).Waiting → (w.recv k).seq ≤ (w.recv j).seq) :
    (w.recv k).tid = a.tid := by
  rcases hguard with ⟨i, hi, htid⟩ | hnone
  · obtain ⟨b, hb, hbk⟩ := h.waiting k hk
    rcases List.mem_cons.mp hb with rfl | hb
    · exact hbk.symm
    · -- a task further back in the queue is younger than the head's own
      have hlt := (List.pairwise_cons.mp h.order).1 b hb i k hi htid hk hbk.symm
      have hle := hfirst i hi
      omega
  · exact absurd hk (hnone k)

/-- The transfer leaves the queue, and its task the waiting ones, whichever task was filled. -/
theorem init {a : Arrival} (h : Queued arrivals (a :: queue) w) :
    Queued arrivals queue (fileStep w a.init) := by
  have hseq : (fileStep w a.init).recvSeq = w.recvSeq := (fileStep_spec w a.init).table.init.1
  have hleft : ∀ j, ((fileStep w a.init).recv j).Waiting →
      (w.recv j).Waiting ∧ (w.recv j).tid ≠ a.tid ∧
        (fileStep w a.init).recv j = w.recv j := by
    by_cases hown : ∃ i, (w.recv i).Waiting ∧ (w.recv i).tid = a.tid
    · obtain ⟨i, hi, -⟩ := id hown
      obtain ⟨f, k, -, hk, hfirst, hr⟩ := fileStep_init_of_waiting (h.formed a (by simp)) hi
      have hkt := h.tid_of_init (Or.inl hown) hk hfirst
      intro j hj
      rw [hr] at hj ⊢
      by_cases hjk : j = k
      · subst hjk
        rw [Function.update_self] at hj
        exact absurd hj.2 (by simp [RecvTask.filled])
      · rw [Function.update_of_ne hjk] at hj ⊢
        exact ⟨hj, fun hjt => hjk (h.one j k hj hk (hjt.trans hkt.symm)), rfl⟩
    · -- its own task is gone: what waits now waited before, under another id
      have hold : ∀ j, ((fileStep w a.init).recv j).Waiting →
          (w.recv j).Waiting ∧ (fileStep w a.init).recv j = w.recv j := by
        intro j hj
        rcases (fileStep_spec w a.init).table.init.2 with hr | ⟨f, k, -, -, -, hr⟩
        · rw [hr] at hj ⊢
          exact ⟨hj, rfl⟩
        · rw [hr] at hj ⊢
          by_cases hjk : j = k
          · subst hjk
            rw [Function.update_self] at hj
            exact absurd hj.2 (by simp [RecvTask.filled])
          · rw [Function.update_of_ne hjk] at hj ⊢
            exact ⟨hj, rfl⟩
      intro j hj
      obtain ⟨hw, heq⟩ := hold j hj
      exact ⟨hw, fun hjt => hown ⟨j, hw, hjt⟩, heq⟩
  generalize fileStep w a.init = w' at hseq hleft ⊢
  constructor
  · exact fun b hb => h.announced b (List.mem_cons_of_mem _ hb)
  · exact fun b hb => h.formed b (List.mem_cons_of_mem _ hb)
  · exact h.distinct
  · intro j hj
    obtain ⟨hw, hne, heq⟩ := hleft j hj
    obtain ⟨b, hb, hbj⟩ := h.waiting j hw
    rcases List.mem_cons.mp hb with rfl | hb
    · exact absurd hbj.symm hne
    · exact ⟨b, hb, by rw [heq, hbj]⟩
  · intro i j hi hj hij
    obtain ⟨hwi, -, heqi⟩ := hleft i hi
    obtain ⟨hwj, -, heqj⟩ := hleft j hj
    rw [heqi, heqj] at hij
    exact h.one i j hwi hwj hij
  · refine (List.pairwise_cons.mp h.order).2.imp fun {b c} hbc i j hi hib hj hjc => ?_
    obtain ⟨hwi, -, heqi⟩ := hleft i hi
    obtain ⟨hwj, -, heqj⟩ := hleft j hj
    rw [heqi] at hib ⊢
    rw [heqj] at hjc ⊢
    exact hbc i j hwi hib hwj hjc
  · rw [hseq]
    exact h.counter
  · intro i hi
    obtain ⟨hwi, -, heqi⟩ := hleft i hi
    rw [heqi, hseq]
    exact h.numbered i hwi

end Queued

/-- The queue describes the waiting tasks in every state of a run. -/
theorem InitRun.queued {guard : World → Arrival → Prop} {arrivals queue : List Arrival}
    {w : World} (h : InitRun guard arrivals queue w) : Queued arrivals queue w := by
  induction h with
  | start disk =>
    have hnone : ∀ i, ¬ ((World.init disk).recv i).Waiting :=
      fun i hi => absurd hi.1 (by simp [World.init, RecvTask.zero])
    exact ⟨by simp, by simp, by simp, fun i hi => absurd hi (hnone i),
      fun i j hi => absurd hi (hnone i), List.Pairwise.nil, Nat.le_refl 0,
      fun i hi => absurd hi (hnone i)⟩
  | announce a h hfresh hformed ih => exact ih.announce hfresh hformed
  | init h hguard ih => exact ih.init
  | other e he h ih =>
    obtain ⟨hd, hseq⟩ := (fileStep_spec _ e).table.between he
    exact ih.descends hd hseq

/-- Every filled task has its own fields, when every INIT frame found its own task waiting, or
    none. -/
theorem InitRun.initsMatch {guard : World → Arrival → Prop} {arrivals queue : List Arrival}
    {w : World} (h : InitRun guard arrivals queue w) (hg : ∀ w a, guard w a → OwnOrNone w a) :
    InitsMatch arrivals w := by
  induction h with
  | start disk => exact .start disk
  | @announce arrivals queue w a h hfresh hformed ih =>
    rcases (fileStep_spec w a.announcement).table.arrival with ⟨hr, -⟩ | ⟨i, -, hr, -⟩
    · exact (ih.more a).descends fun i => by
        rw [hr]
        exact .refl _
    · exact (ih.more a).update_waiting rfl hr
  | @init arrivals queue a w h hguard ih =>
    rcases (fileStep_spec w a.init).table.init.2 with hr | ⟨f, i, hf, hi, hfirst, hr⟩
    · exact ih.descends fun i => by
        rw [hr]
        exact .refl _
    · exact ih.update_filled (h.queued.announced a (by simp)) hf
        (h.queued.tid_of_init (hg w a hguard) hi hfirst) hr
  | other e he h ih => exact ih.descends ((fileStep_spec _ e).table.between he).1

/-- The next INIT frame changes no task but its own exactly when its own task waits for it, or
    no task at all. -/
theorem Queued.ownOrNone_iff {arrivals queue : List Arrival} {w : World} {a : Arrival}
    (h : Queued arrivals (a :: queue) w) :
    OwnOrNone w a ↔
      ∀ i, (fileStep w a.init).recv i ≠ w.recv i → (w.recv i).tid = a.tid := by
  constructor
  · intro hguard i hi
    rcases (fileStep_spec w a.init).table.init.2 with hr | ⟨f, k, -, hk, hfirst, hr⟩
    · exact absurd (congrFun hr i) hi
    · have hik : i = k := by
        by_contra hne
        exact hi (by rw [hr, Function.update_of_ne hne])
      rw [hik]
      exact h.tid_of_init hguard hk hfirst
  · intro hchange
    by_contra hguard
    obtain ⟨hown, hsome⟩ := not_or.mp hguard
    obtain ⟨j, hj⟩ := not_forall_not.mp hsome
    -- the oldest task is filled, and it is not the frame's own
    obtain ⟨f, k, -, hk, -, hr⟩ := fileStep_init_of_waiting (h.formed a (by simp)) hj
    have hfilled : (fileStep w a.init).recv k ≠ w.recv k := by
      rw [hr, Function.update_self]
      intro heq
      have hinit := congrArg RecvTask.inited heq
      rw [hk.2] at hinit
      exact absurd hinit (by simp [RecvTask.filled])
    exact hown ⟨k, hk, hchange k hfilled⟩

/-- **INIT frames behind their announcements.** With well-formed INIT frames and different ids,
    in every run: the next INIT frame changes no task but its own exactly when its own task
    waits for it, or no task at all; and when that was so for every INIT frame of the run,
    every filled task has the fields of its own INIT frame. -/
theorem initsMatch_of_initRun {guard : World → Arrival → Prop} {arrivals queue : List Arrival}
    {w : World} (h : InitRun guard arrivals queue w) :
    ((∀ w a, guard w a → OwnOrNone w a) → InitsMatch arrivals w) ∧
      ∀ a rest, queue = a :: rest →
        (OwnOrNone w a ↔
          ∀ i, (fileStep w a.init).recv i ≠ w.recv i → (w.recv i).tid = a.tid) := by
  refine ⟨h.initsMatch, ?_⟩
  rintro a rest rfl
  exact h.queued.ownOrNone_iff

/-- Bob offers a file of one byte. -/
def bobArrival : Arrival where
  tid := 1
  text := (Announcement.incoming (utf8 "bob") (utf8 "a") 1).text 1
  announces := by decide +kernel
  payload := utf8 "bob" ++ 0 :: utf8 "a" ++ 0 :: utf8 "1" ++ [0]
  io := Io.ok

/-- A client that got both announcements and waits for both INIT frames. -/
def bothAnnounced : World :=
  fileStep (fileStep (World.init fun _ => none) bobArrival.announcement) eveArrival.announcement

theorem bothAnnounced_run (guard : World → Arrival → Prop) :
    InitRun guard ([bobArrival] ++ [eveArrival]) ([bobArrival] ++ [eveArrival]) bothAnnounced :=
  .announce eveArrival (.announce bobArrival (.start _) (by simp) (by decide +kernel))
    (by simp [bobArrival, eveArrival]) (by decide +kernel)

/-- Both INIT frames find their tasks. -/
theorem initsMatch_of_initRun_both :
    InitsMatch ([bobArrival] ++ [eveArrival])
      (fileStep (fileStep bothAnnounced bobArrival.init) eveArrival.init) := by
  have hbob := (bothAnnounced_run OwnOrNone).init (Or.inl (by decide +kernel))
  exact (initsMatch_of_initRun (hbob.init (Or.inl (by decide +kernel)))).1 fun _ _ h => h

/-- After `/reject 1` Bob's INIT frame goes to Eve's task. -/
theorem orphan_init_misleads :
    InitRun (fun _ _ => True) ([bobArrival] ++ [eveArrival]) [eveArrival]
        (fileStep (fileStep bothAnnounced (.reject (utf8 "/reject 1") Io.ok)) bobArrival.init) ∧
      ¬ InitsMatch ([bobArrival] ++ [eveArrival])
        (fileStep (fileStep bothAnnounced (.reject (utf8 "/reject 1") Io.ok))
          bobArrival.init) := by
  have hrejected := (bothAnnounced_run fun _ _ => True).other
    (.reject (utf8 "/reject 1") Io.ok) trivial
  exact ⟨hrejected.init trivial, by decide +kernel⟩

end TCPClient
