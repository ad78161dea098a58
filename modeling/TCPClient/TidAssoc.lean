import TCPClient.FileInvariant

namespace TCPClient

open Octets

/-!
# The id of the send task

The server answers INIT frames in order, each with a waiting announcement that carries an id or
with an error 200; other commands get errors 200 of their own.  Neither answer names the frame
it answers.  `tid_of_answerRun` says what the client makes of them: the announcement that comes
while the task waits brings the task's own id exactly when no other INIT frame is unanswered,
and an error 200 clears the task exactly while it waits.
-/

/-- What the server makes of an INIT frame: the id it assigns, or `none` for an error 200. -/
abbrev Fate := Option Nat

/-- A sequence of user commands and answers.  `used` are the ids assigned so far, `outstanding`
    the fates of the INIT frames not answered yet, oldest first, `mine` the fate of the last INIT
    frame, that of the current send task if there is one.  `guard` restricts when an INIT frame
    may be sent. -/
inductive AnswerRun (guard : List Fate → Fate → Prop) :
    List Nat → List Fate → Fate → World → Prop where
  | start (disk : Bytes → Option Bytes) : AnswerRun guard [] [] none (World.init disk)
  | submitted {used : List Nat} {outstanding : List Fate} {mine : Fate} {w : World}
      (line : Bytes) (io : SendfileIo) (fate : Fate)
      (h : AnswerRun guard used outstanding mine w)
      (hbefore : w.send.busy = false)
      (hafter : (fileStep w (.sendfile line io)).send.busy = true)
      (hfresh : ∀ tid, fate = some tid → tid ∉ used) (hguard : guard outstanding fate) :
      AnswerRun guard (used ++ fate.toList) (outstanding ++ [fate]) fate
        (fileStep w (.sendfile line io))
  | notSubmitted {used : List Nat} {outstanding : List Fate} {mine : Fate} {w : World}
      (line : Bytes) (io : SendfileIo) (h : AnswerRun guard used outstanding mine w)
      (hnot : ¬ (w.send.busy = false ∧ (fileStep w (.sendfile line io)).send.busy = true)) :
      AnswerRun guard used outstanding mine (fileStep w (.sendfile line io))
  | announced {used : List Nat} {outstanding : List Fate} {mine : Fate} {w : World} {tid : Nat}
      (text : Bytes) (io : Io) (h : AnswerRun guard used (some tid :: outstanding) mine w)
      (hparse : fileParseAnnouncement text = some (.sendPending, tid)) :
      AnswerRun guard used outstanding mine (fileStep w (.announcement text io))
  | refused {used : List Nat} {outstanding : List Fate} {mine : Fate} {w : World} (io : Io)
      (h : AnswerRun guard used (none :: outstanding) mine w) :
      AnswerRun guard used outstanding mine (fileStep w (.error errNoSuchUser io))
  | failed {used : List Nat} {outstanding : List Fate} {mine : Fate} {w : World} (io : Io)
      (h : AnswerRun guard used outstanding mine w) :
      AnswerRun guard used outstanding mine (fileStep w (.error errNoSuchUser io))
  | other {used : List Nat} {outstanding : List Fate} {mine : Fate} {w : World} (e : FileEvent)
      (h : AnswerRun guard used outstanding mine w)
      (hsend : ∀ line io, e ≠ .sendfile line io)
      (hwait : ∀ text io tid, e = .announcement text io →
        fileParseAnnouncement text ≠ some (.sendPending, tid))
      (herror : ∀ io, e ≠ .error errNoSuchUser io) :
      AnswerRun guard used outstanding mine (fileStep w e)

/-- The task waits for its id. -/
def SendTask.Awaits (t : SendTask) : Prop := t.busy = true ∧ t.state = .pendingTid

/-! ### What the two answers do -/

/-- An error 200 clears the task that waits for its id and leaves any other alone. -/
theorem fileStep_noSuchUser (w : World) (io : Io) :
    fileStep w (.error errNoSuchUser io) =
      if w.send.busy ∧ w.send.state = .pendingTid then w.sendTaskClear else w := by
  rw [fileStep, World.fileHandleError, if_pos rfl]

/-- A waiting announcement gives its id to the task that waits for one. -/
theorem fileStep_sendPending (w : World) (io : Io) {text : Bytes} {tid : Nat}
    (hparse : fileParseAnnouncement text = some (.sendPending, tid)) :
    fileStep w (.announcement text io) =
      if w.send.busy ∧ w.send.state = .pendingTid then
        w.setSend { w.send with tid := tid, state := .pending } else w := by
  rw [fileStep, World.fileHandleAnnouncement, hparse]
  rfl

/-- No task waits behind an error 200. -/
theorem not_awaits_noSuchUser (w : World) (io : Io) :
    ¬ (fileStep w (.error errNoSuchUser io)).send.Awaits := by
  rw [fileStep_noSuchUser]
  split_ifs with hc
  · exact fun h => absurd h.1 SendTask.not_busy_zero
  · exact hc

/-- No task waits behind a waiting announcement. -/
theorem not_awaits_sendPending (w : World) (io : Io) {text : Bytes} {tid : Nat}
    (hparse : fileParseAnnouncement text = some (.sendPending, tid)) :
    ¬ (fileStep w (.announcement text io)).send.Awaits := by
  rw [fileStep_sendPending w io hparse]
  split_ifs with hc
  · exact fun h => absurd h.2 (by simp)
  · exact hc

/-- A task that waits waited before, or was submitted by this very event. -/
theorem SendStep.awaits {t t' : SendTask} {e : FileEvent} (hs : SendStep t e t')
    (h : t'.Awaits) : t' = t ∨ (t.busy = false ∧ ∃ line io, e = .sendfile line io) := by
  obtain ⟨hb, hst⟩ := h
  cases hs with
  | keep => exact Or.inl rfl
  | submit line io target filename size hfree hsize => exact Or.inr ⟨hfree, line, io, rfl⟩
  | submitLost line io hfree => exact absurd hb SendTask.not_busy_zero
  | assign text io tid hparse hbusy hstate => exact absurd hst (by simp)
  | accept _ haddr hbusy hstate => exact absurd hst (by simp)
  | clear _ haddr hbusy hwhy => exact absurd hb SendTask.not_busy_zero
  | noSuchUser io hbusy hstate => exact absurd hb SendTask.not_busy_zero
  | transferState io hbusy => exact absurd hb SendTask.not_busy_zero
  | tick io _ hbusy hstate ht =>
    rcases ht with rfl | ⟨-, -, -, h' | h' | h'⟩
    · exact absurd hb SendTask.not_busy_zero
    all_goals
      rw [h'] at hst
      exact absurd hst (by simp)
  | reset io hbusy => exact absurd hb SendTask.not_busy_zero

/-! ### The queue of answers -/

/-- The INIT frame of a waiting task is the last one unanswered, and the ids to come are among
    the ids assigned, which are all different. -/
structure AnswerQueue (used : List Nat) (outstanding : List Fate) (mine : Fate) (t : SendTask) :
    Prop where
  last : t.Awaits → ∃ earlier, outstanding = earlier ++ [mine]
  assigned : outstanding.filterMap id <:+ used
  distinct : used.Nodup

/-- **Queue lemma.** So it is in every run, whenever INIT frames are sent. -/
theorem AnswerRun.queue {guard : List Fate → Fate → Prop} {used : List Nat}
    {outstanding : List Fate} {mine : Fate} {w : World}
    (h : AnswerRun guard used outstanding mine w) : AnswerQueue used outstanding mine w.send := by
  induction h with
  | start disk =>
    exact ⟨fun h => absurd h.1 (by simp [World.init, SendTask.zero]), by simp, by simp⟩
  | @submitted used outstanding mine w line io fate h hbefore hafter hfresh hguard ih =>
    refine ⟨fun _ => ⟨outstanding, rfl⟩, ?_, ?_⟩
    · obtain ⟨older, holder⟩ := ih.assigned
      refine ⟨older, ?_⟩
      rw [List.filterMap_append, ← List.append_assoc, holder]
      cases fate <;> rfl
    · rw [List.nodup_append]
      refine ⟨ih.distinct, by cases fate <;> simp, fun tid htid tid' htid' => ?_⟩
      rintro rfl
      exact hfresh tid (by simpa using htid') htid
  | notSubmitted line io h hnot ih =>
    refine ⟨fun haw => ?_, ih.assigned, ih.distinct⟩
    rcases (fileStep_spec _ _).send.awaits haw with heq | ⟨hfree, -⟩
    · rw [heq] at haw
      exact ih.last haw
    · exact absurd ⟨hfree, haw.1⟩ hnot
  | announced text io h hparse ih =>
    exact ⟨fun haw => absurd haw (not_awaits_sendPending _ io hparse),
      ((List.suffix_cons _ _).filterMap id).trans ih.assigned, ih.distinct⟩
  | refused io h ih =>
    exact ⟨fun haw => absurd haw (not_awaits_noSuchUser _ io), ih.assigned, ih.distinct⟩
  | failed io h ih =>
    exact ⟨fun haw => absurd haw (not_awaits_noSuchUser _ io), ih.assigned, ih.distinct⟩
  | other e h hsend hwait herror ih =>
    refine ⟨fun haw => ?_, ih.assigned, ih.distinct⟩
    rcases (fileStep_spec _ e).send.awaits haw with heq | ⟨-, line, io, heq⟩
    · rw [heq] at haw
      exact ih.last haw
    · exact absurd heq (hsend line io)

/-- The id at the head of the queue is the waiting task's own exactly when nothing is behind
    it. -/
theorem AnswerQueue.mine_iff {used : List Nat} {rest : List Fate} {mine : Fate} {t : SendTask}
    {tid : Nat} (h : AnswerQueue used (some tid :: rest) mine t) (haw : t.Awaits) :
    mine = some tid ↔ rest = [] := by
  obtain ⟨earlier, hlast⟩ := h.last haw
  constructor
  · rintro rfl
    cases earlier with
    | nil => exact (List.cons.inj hlast).2
    | cons f earlier =>
      -- otherwise the id stands at both ends of the queue
      have hrest : rest = earlier ++ [some tid] := (List.cons.inj hlast).2
      have hhead : id (some tid) = some tid := rfl
      have hnd := h.assigned.sublist.nodup h.distinct
      rw [hrest, List.filterMap_cons_some hhead, List.filterMap_append, List.nodup_cons] at hnd
      exact absurd (List.mem_append_right _ (by simp)) hnd.1
  · rintro rfl
    have hlen : earlier = [] := by
      have := congrArg List.length hlast
      simpa using this
    subst hlen
    exact (List.cons.inj hlast).1.symm

/-! ### One INIT frame at a time -/

/-- An INIT frame may be sent when no other is unanswered, or when it and all unanswered ones
    get errors. -/
def Unambiguous (outstanding : List Fate) (fate : Fate) : Prop :=
  outstanding = [] ∨ (fate = none ∧ ∀ f ∈ outstanding, f = none)

/-- What the client knows agrees with what the server decided. -/
structure Agrees (outstanding : List Fate) (mine : Fate) (t : SendTask) : Prop where
  known : t.busy = true → t.state ≠ .pendingTid → mine = some t.tid
  awaited : t.busy = true → t.state = .pendingTid → ∀ tid, mine = some tid →
    outstanding = [some tid]
  doomed : t.busy = true → t.state = .pendingTid → mine = none → ∀ f ∈ outstanding, f = none

namespace Agrees

variable {outstanding : List Fate} {mine : Fate} {t t' : SendTask}

/-- No task, nothing to know. -/
theorem of_not_busy (h : t.busy = false) : Agrees outstanding mine t := by
  constructor <;> intro hb <;> rw [h] at hb <;> exact absurd hb (by simp)

/-- A task that has its id is not concerned by the answers to come. -/
theorem of_known (h : t.busy = true → mine = some t.tid) (hstate : t.state ≠ .pendingTid) :
    Agrees outstanding mine t :=
  ⟨fun hb _ => h hb, fun _ hst => absurd hst hstate, fun _ hst => absurd hst hstate⟩

/-- An error 200 leaves a task that has its id alone. -/
theorem error {w : World} (io : Io) {outstanding' : List Fate}
    (h : Agrees outstanding mine w.send) :
    Agrees outstanding' mine (fileStep w (.error errNoSuchUser io)).send := by
  rw [fileStep_noSuchUser]
  split_ifs with hc
  · exact of_not_busy (by simp [SendTask.zero])
  · by_cases hb : w.send.busy = true
    · have hst : w.send.state ≠ .pendingTid := fun hst => hc ⟨hb, hst⟩
      exact of_known (fun hb => h.known hb hst) hst
    · exact of_not_busy (by simpa using hb)

/-- A new task waits for its id. -/
theorem submitted {line : Bytes} {io : SendfileIo} {fate : Fate}
    (hs : SendStep t (.sendfile line io) t') (hbefore : t.busy = false) (hafter : t'.busy = true)
    (hguard : Unambiguous outstanding fate) : Agrees (outstanding ++ [fate]) fate t' := by
  have hstate : t'.state = .pendingTid := by
    cases hs with
    | keep =>
      rw [hbefore] at hafter
      exact absurd hafter (by simp)
    | submit _ _ target filename size hfree hsize => rfl
    | submitLost _ _ hfree => exact absurd hafter (by simp [SendTask.zero])
    | accept _ haddr => exact absurd haddr (by simp [FileEvent.addressee])
    | clear _ haddr => exact absurd haddr (by simp [FileEvent.addressee])
  refine ⟨fun _ hne => absurd hstate hne, fun _ _ tid hfate => ?_, fun _ _ hfate f hf => ?_⟩
  · rcases hguard with rfl | ⟨hnone, -⟩
    · rw [hfate]
      rfl
    · rw [hnone] at hfate
      exact absurd hfate (by simp)
  · rcases List.mem_append.mp hf with hf | hf
    · rcases hguard with rfl | ⟨-, hall⟩
      · exact absurd hf (by simp)
      · exact hall f hf
    · rw [List.mem_singleton.mp hf, hfate]

/-- A `/sendfile` that sends no INIT frame makes no task. -/
theorem notSubmitted {line : Bytes} {io : SendfileIo} (h : Agrees outstanding mine t)
    (hs : SendStep t (.sendfile line io) t') (hnot : ¬ (t.busy = false ∧ t'.busy = true)) :
    Agrees outstanding mine t' := by
  cases hs with
  | keep => exact h
  | submit _ _ target filename size hfree hsize => exact absurd ⟨hfree, rfl⟩ hnot
  | submitLost _ _ hfree => exact of_not_busy rfl
  | accept _ haddr => exact absurd haddr (by simp [FileEvent.addressee])
  | clear _ haddr => exact absurd haddr (by simp [FileEvent.addressee])

/-- The waiting announcement goes to the task whose INIT frame it answers, if that task is still
    there. -/
theorem announced {w : World} {text : Bytes} {io : Io} {tid : Nat}
    (hparse : fileParseAnnouncement text = some (.sendPending, tid))
    (h : Agrees (some tid :: outstanding) mine w.send) :
    Agrees outstanding mine (fileStep w (.announcement text io)).send := by
  rw [fileStep_sendPending w io hparse]
  split_ifs with hc
  · obtain ⟨hb, hst⟩ := hc
    have hmine : mine = some tid := by
      cases hm : mine with
      | none => exact absurd (h.doomed hb hst hm (some tid) (by simp)) (by simp)
      | some t => exact (List.cons.inj (h.awaited hb hst t hm)).1.symm
    exact of_known (fun _ => hmine) (by simp)
  · by_cases hb : w.send.busy = true
    · have hst : w.send.state ≠ .pendingTid := fun hst => hc ⟨hb, hst⟩
      exact of_known (fun hb => h.known hb hst) hst
    · exact of_not_busy (by simpa using hb)

/-- Other events assign no id. -/
theorem other {e : FileEvent} (h : Agrees outstanding mine t) (hs : SendStep t e t')
    (hsend : ∀ line io, e ≠ .sendfile line io)
    (hwait : ∀ text io tid, e = .announcement text io →
      fileParseAnnouncement text ≠ some (.sendPending, tid))
    (herror : ∀ io, e ≠ .error errNoSuchUser io) : Agrees outstanding mine t' := by
  cases hs with
  | keep => exact h
  | submit line io target filename size hfree hsize => exact absurd rfl (hsend line io)
  | submitLost line io hfree => exact absurd rfl (hsend line io)
  | assign text io tid hparse hbusy hstate => exact absurd hparse (hwait text io tid rfl)
  | accept _ haddr hbusy hstate =>
    exact of_known (fun hb => h.known hb (by rw [hstate]; decide)) (by simp)
  | clear _ haddr hbusy hwhy => exact of_not_busy rfl
  | noSuchUser io hbusy hstate => exact absurd rfl (herror io)
  | transferState io hbusy => exact of_not_busy rfl
  | tick io _ hbusy hstate ht =>
    rcases ht with rfl | ⟨hb', htid, -, hst'⟩
    · exact of_not_busy rfl
    · have hlate : t.state ≠ .pendingTid := by
        rcases hstate with h' | h' <;> rw [h'] <;> decide
      refine of_known (fun _ => ?_) ?_
      · rw [htid]
        exact h.known hbusy hlate
      · rcases hst' with h' | h' | h' <;> rw [h'] <;> decide
  | reset io hbusy => exact of_not_busy rfl

end Agrees

/-- **Run lemma.** With one INIT frame at a time client and server agree in every state. -/
theorem AnswerRun.agrees {guard : List Fate → Fate → Prop} {used : List Nat}
    {outstanding : List Fate} {mine : Fate} {w : World}
    (h : AnswerRun guard used outstanding mine w)
    (hone : ∀ outstanding fate, guard outstanding fate → Unambiguous outstanding fate) :
    Agrees outstanding mine w.send := by
  induction h with
  | start disk => exact .of_not_busy rfl
  | submitted line io fate h hbefore hafter hfresh hguard ih =>
    exact .submitted (fileStep_spec _ _).send hbefore hafter (hone _ _ hguard)
  | notSubmitted line io h hnot ih => exact ih.notSubmitted (fileStep_spec _ _).send hnot
  | announced text io h hparse ih => exact ih.announced hparse
  | refused io h ih => exact ih.error io
  | failed io h ih => exact ih.error io
  | other e h hsend hwait herror ih => exact ih.other (fileStep_spec _ e).send hsend hwait herror

/-- **The id of the send task**, in every state of every run.

    * When INIT frames were sent one at a time, a task that has left `PENDING_TID` has the id
      that the server assigned to its own INIT frame.
    * While the task waits, the announcement that comes next brings its own id exactly when its
      INIT frame is the only one unanswered.
    * An error 200 clears the task exactly while it waits. -/
theorem tid_of_answerRun {guard : List Fate → Fate → Prop} {used : List Nat}
    {outstanding : List Fate} {mine : Fate} {w : World}
    (h : AnswerRun guard used outstanding mine w) :
    ((∀ outstanding fate, guard outstanding fate → Unambiguous outstanding fate) →
      w.send.busy = true → w.send.state ≠ .pendingTid → mine = some w.send.tid) ∧
    (w.send.Awaits → ∀ (tid : Nat) (rest : List Fate), outstanding = some tid :: rest →
      ∀ (text : Bytes) (io : Io), fileParseAnnouncement text = some (.sendPending, tid) →
        (mine = some (fileStep w (.announcement text io)).send.tid ↔ rest = [])) ∧
    (w.send.busy = true → ∀ io : Io,
      ((fileStep w (.error errNoSuchUser io)).send = w.send ↔ w.send.state ≠ .pendingTid)) := by
  refine ⟨fun hone => (h.agrees hone).known, ?_, fun hb io => ?_⟩
  · rintro haw tid rest rfl text io hparse
    rw [fileStep_sendPending w io hparse, if_pos ⟨haw.1, haw.2⟩]
    exact h.queue.mine_iff haw
  · rw [fileStep_noSuchUser]
    constructor
    · intro heq hst
      rw [if_pos ⟨hb, hst⟩] at heq
      have hzero := congrArg SendTask.busy heq
      rw [hb] at hzero
      exact absurd hzero (by simp [SendTask.zero])
    · intro hst
      rw [if_neg fun hc => hst hc.2]

/-- `/sendfile bob a` with the file at hand and the connection up. -/
def submitBob : FileEvent :=
  .sendfile (utf8 "/sendfile bob a") ⟨true, true, 1, true, true, SendfileIo.fsizeLong_one⟩

/-- The waiting announcement that assigns the id 5. -/
def assignFive : FileEvent :=
  .announcement ((Announcement.waiting (utf8 "a") 1 (utf8 "bob")).text 5) Io.ok

/-- A client whose first INIT frame is under way. -/
def submittedBob : World := fileStep (World.init fun _ => none) submitBob

theorem submittedBob_run {guard : List Fate → Fate → Prop} (h : guard [] (some 5)) :
    AnswerRun guard [5] [some 5] (some 5) submittedBob :=
  .submitted _ _ (some 5) (.start _) rfl (by decide +kernel) (by simp) h

/-- The task gets the id 5, and an error of another command leaves it alone. -/
theorem tid_of_answerRun_five :
    some 5 = some (fileStep submittedBob assignFive).send.tid ∧
      (fileStep (fileStep submittedBob assignFive) (.error errNoSuchUser Io.ok)).send =
        (fileStep submittedBob assignFive).send := by
  have hrun : AnswerRun Unambiguous [5] [] (some 5) (fileStep submittedBob assignFive) :=
    .announced _ _ (submittedBob_run (Or.inl rfl)) (by decide +kernel)
  obtain ⟨hknown, -, hkept⟩ := tid_of_answerRun hrun
  refine ⟨hknown (fun _ _ h => h) (by decide +kernel) (by decide +kernel), ?_⟩
  exact (hkept (by decide +kernel) Io.ok).mpr (by decide +kernel)

/-- An error of another command clears the task, a second file is submitted, and the id 5 of the
    first INIT frame goes to it although the server assigns 6 to the second. -/
theorem foreign_error_shifts_tid :
    AnswerRun (fun _ _ => True) ([5] ++ [6]) [some 6] (some 6)
        (fileStep (fileStep (fileStep submittedBob (.error errNoSuchUser Io.ok)) submitBob)
          assignFive) ∧
      (fileStep (fileStep (fileStep submittedBob (.error errNoSuchUser Io.ok)) submitBob)
          assignFive).send.busy = true ∧
      (fileStep (fileStep (fileStep submittedBob (.error errNoSuchUser Io.ok)) submitBob)
          assignFive).send.state = .pending ∧
      (fileStep (fileStep (fileStep submittedBob (.error errNoSuchUser Io.ok)) submitBob)
          assignFive).send.tid = 5 := by
  refine ⟨?_, by decide +kernel, by decide +kernel, by decide +kernel⟩
  have hfailed : AnswerRun (fun _ _ => True) [5] [some 5] (some 5)
      (fileStep submittedBob (.error errNoSuchUser Io.ok)) :=
    .failed Io.ok (submittedBob_run trivial)
  have hagain : AnswerRun (fun _ _ => True) ([5] ++ [6]) ([some 5] ++ [some 6]) (some 6)
      (fileStep (fileStep submittedBob (.error errNoSuchUser Io.ok)) submitBob) :=
    .submitted _ _ (some 6) hfailed (by decide +kernel) (by decide +kernel) (by simp) trivial
  exact .announced _ _ hagain (by decide +kernel)

end TCPClient
