import TCPClient.FolderSpec

namespace TCPClient

open Octets

/-!
# Signals that come twice

The server tells most things twice, by an announcement and by a control frame.  `signalled` is
what either form does; `signals_idempotent` says that the order and the number of signals make
no difference, and `signal_unheld` that a signal for a transfer without a task does nothing.
-/

/-- What both an announcement and a control frame can tell. -/
inductive SignalKind where
  | accept
  | reject
  | cancel
  | complete
  deriving DecidableEq, Repr

def SignalKind.frameType : SignalKind → UInt8
  | .accept => msgFileAccept
  | .reject => msgFileReject
  | .cancel => msgFileCancel
  | .complete => msgFileComplete

/-- The signal an announcement gives; the other two kinds are no signals. -/
def FileAnnKind.signal : FileAnnKind → Option SignalKind
  | .accepted => some .accept
  | .rejected => some .reject
  | .cancelled | .cancelledDisc => some .cancel
  | .complete => some .complete
  | .sendPending | .recvPending => none

/-- A signal for a transfer, by announcement (`true`) or by frame (`false`); `loss` and
    `removeOk` are the answers to an `fclose` and a `remove` it may lead to. -/
inductive Signal (kind : SignalKind) (tid : Nat) (loss : Option Bytes) (removeOk : Bool) :
    Bool → FileEvent → Prop where
  | announcement (text : Bytes) (io : Io) (ann : FileAnnKind)
      (hparse : fileParseAnnouncement text = some (ann, tid)) (hkind : ann.signal = some kind)
      (hloss : io.fcloseLoss = loss) (hremove : io.removeOk = removeOk) :
      Signal kind tid loss removeOk true (.announcement text io)
  | frame (payload : Bytes) (io : Io) (h4 : payload.length = 4)
      (htid : utilsReadU32Be payload = tid)
      (hloss : io.fcloseLoss = loss) (hremove : io.removeOk = removeOk) :
      Signal kind tid loss removeOk false (.frame kind.frameType payload io)

/-- A receive task holds the id. -/
def World.Holds (w : World) (tid : Nat) (i : Slot) : Prop :=
  (w.recv i).busy = true ∧ (w.recv i).tid = tid

instance (w : World) (tid : Nat) (i : Slot) : Decidable (w.Holds tid i) :=
  inferInstanceAs (Decidable (_ ∧ _))

/-- No task holds the id. -/
structure World.Unheld (w : World) (tid : Nat) : Prop where
  send : w.sendTaskMatches tid = false
  recv : ∀ i, ¬ w.Holds tid i

/-- At most one task holds the id. -/
structure World.HeldOnce (w : World) (tid : Nat) : Prop where
  send : w.sendTaskMatches tid = true → ∀ i, ¬ w.Holds tid i
  recv : ∀ i j, w.Holds tid i → w.Holds tid j → i = j

namespace World

/-- What a signal does, in either form. -/
def signalled (w : World) (io : Io) (kind : SignalKind) (announcement : Bool) (tid : Nat) :
    World :=
  match kind with
  | .accept => w.accepted tid
  | .reject => w.rejected tid
  | .cancel => w.cancelled io tid
  | .complete =>
    -- only the announcement is for the sender, too
    if announcement = true ∧ w.sendTaskMatches tid ∧ w.send.state = .waitComplete then
      w.sendTaskClear
    else w.recvTaskComplete io tid

/-! ### The answers a clear depends on -/

theorem recvTaskClear_congr (w : World) {io io' : Io} (hloss : io.fcloseLoss = io'.fcloseLoss)
    (hremove : io.removeOk = io'.removeOk) (i : Slot) :
    w.recvTaskClear io i = w.recvTaskClear io' i := by
  simp only [recvTaskClear, discardFile, hloss, hremove]

theorem signalled_congr (w : World) (io io' : Io) (hloss : io.fcloseLoss = io'.fcloseLoss)
    (hremove : io.removeOk = io'.removeOk) (kind : SignalKind) (announcement : Bool)
    (tid : Nat) : w.signalled io kind announcement tid = w.signalled io' kind announcement tid := by
  have hclear : ∀ (w' : World) (i : Slot), w'.recvTaskClear io i = w'.recvTaskClear io' i :=
    fun w' => recvTaskClear_congr w' hloss hremove
  cases kind with
  | accept => rfl
  | reject => rfl
  | cancel => simp only [signalled, cancelled, hclear]
  | complete => simp only [signalled, recvTaskComplete, recvTaskFinish, hclear]

end World

/-- The answers of a signal. -/
def signalIo (loss : Option Bytes) (removeOk : Bool) : Io :=
  { Io.ok with fcloseLoss := loss, removeOk := removeOk }

theorem Signal.fileStep_eq {kind : SignalKind} {tid : Nat} {loss : Option Bytes} {removeOk : Bool}
    {announcement : Bool} {e : FileEvent} (h : Signal kind tid loss removeOk announcement e)
    (w : World) :
    fileStep w e = w.signalled (signalIo loss removeOk) kind announcement tid := by
  cases h with
  | announcement text io ann hparse hkind hloss hremove =>
    rw [← w.signalled_congr io _ hloss hremove, fileStep, World.fileHandleAnnouncement, hparse]
    dsimp only
    -- of the seven kinds of announcements only those with a signal remain
    cases ann <;> cases hkind <;> simp [World.announced, World.signalled]
  | frame payload io h4 htid hloss hremove =>
    rw [← w.signalled_congr io _ hloss hremove, fileStep, World.fileFrame_control w io _ h4, htid,
      World.controlFrame]
    cases kind <;> simp [SignalKind.frameType, World.signalled, msgFileAccept, msgFileReject,
      msgFileCancel, msgFileComplete]

namespace World

variable {w : World} {tid : Nat} {io : Io} {kind : SignalKind} {announcement : Bool}

/-! ### Which task a signal finds -/

theorem recvTaskFind_eq_none : w.recvTaskFind tid = none ↔ ∀ i, ¬ w.Holds tid i := by
  simp [recvTaskFind, Holds]

theorem Holds.find (h : w.HeldOnce tid) {i : Slot} (hi : w.Holds tid i) :
    w.recvTaskFind tid = some i := by
  cases hfind : w.recvTaskFind tid with
  | none => exact absurd hi (recvTaskFind_eq_none.mp hfind i)
  | some j => rw [h.recv j i (recvTaskFind_eq_some hfind) hi]

/-- Without a task a signal finds nothing to do. -/
theorem Unheld.signalled (h : w.Unheld tid) :
    w.signalled io kind announcement tid = w := by
  have hfind := recvTaskFind_eq_none.mpr h.recv
  cases kind with
  | accept => simp [World.signalled, accepted, h.send]
  | reject => simp [World.signalled, rejected, h.send]
  | cancel => simp [World.signalled, cancelled, h.send, hfind]
  | complete => simp [World.signalled, recvTaskComplete, h.send, hfind]

theorem unheld_sendTaskClear (h : w.HeldOnce tid) (hm : w.sendTaskMatches tid = true) :
    w.sendTaskClear.Unheld tid := by
  refine ⟨by simp [sendTaskMatches, SendTask.zero], fun i hi => h.send hm i ?_⟩
  simpa [Holds] using hi

theorem unheld_of_cleared {w' : World} {i : Slot} (h : w.HeldOnce tid) (hi : w.Holds tid i)
    (ht : w'.tasks = { w.tasks with recv := Function.update w.recv i RecvTask.zero }) :
    w'.Unheld tid := by
  constructor
  · have hsend : w.sendTaskMatches tid = false := by
      by_contra hm
      exact h.send (by simpa using hm) i hi
    simpa [sendTaskMatches, ht] using hsend
  · intro j hj
    by_cases hji : j = i
    · simp [Holds, ht, hji, RecvTask.zero] at hj
    · have hold : w.Holds tid j := by
        simpa [Holds, ht, hji] using hj
      exact hji (h.recv j i hold hi)

/-- A receive task is gone after its completion, by either form. -/
theorem unheld_recvTaskComplete (h : w.HeldOnce tid) {i : Slot} (hi : w.Holds tid i) :
    (w.recvTaskComplete io tid).Unheld tid := by
  unfold recvTaskComplete
  rw [hi.find h]
  dsimp only
  split_ifs
  · exact unheld_of_cleared h hi (w.tasks_recvTaskFinish io i)
  · exact unheld_of_cleared h hi (by simp)

/-- A second signal that is not a completion finds nothing left to do. -/
theorem signalled_twice (h : w.HeldOnce tid) (hkind : kind ≠ .complete) (a b : Bool) :
    (w.signalled io kind a tid).signalled io kind b tid = w.signalled io kind a tid := by
  cases kind with
  | accept =>
    -- the first one makes the task ACTIVE, and only a PENDING one is accepted
    simp only [signalled, accepted]
    split_ifs with h1 h2
    · exact absurd h2.2 (by simp)
    · rfl
    · rfl
  | reject =>
    cases hm : w.sendTaskMatches tid with
    | true =>
      have hgone := unheld_sendTaskClear h hm
      have hstep : w.signalled io .reject a tid = w.sendTaskClear := by
        simp [signalled, rejected, hm]
      rw [hstep, hgone.signalled]
    | false =>
      have hstep : ∀ c, w.signalled io .reject c tid = w := by
        simp [signalled, rejected, hm]
      rw [hstep, hstep]
  | cancel =>
    cases hm : w.sendTaskMatches tid with
    | true =>
      have hgone := unheld_sendTaskClear h hm
      have hstep : w.signalled io .cancel a tid = w.sendTaskClear := by
        simp [signalled, cancelled, hm]
      rw [hstep, hgone.signalled]
    | false =>
      cases hfind : w.recvTaskFind tid with
      | none =>
        have hgone : w.Unheld tid := ⟨hm, recvTaskFind_eq_none.mp hfind⟩
        rw [hgone.signalled, hgone.signalled]
      | some i =>
        have hgone : (w.recvTaskClear io i).Unheld tid :=
          unheld_of_cleared h (recvTaskFind_eq_some hfind) (by simp)
        have hstep : w.signalled io .cancel a tid = w.recvTaskClear io i := by
          simp [signalled, cancelled, hm, hfind]
        rw [hstep, hgone.signalled]
  | complete => exact absurd rfl hkind

/-- The two forms of a signal do the same, unless it is a completion the sender waits for. -/
theorem signalled_form (io : Io)
    (h : kind ≠ .complete ∨ (w.HeldOnce tid ∧ ∃ i, w.Holds tid i)) (a b : Bool) :
    w.signalled io kind a tid = w.signalled io kind b tid := by
  cases kind with
  | accept => rfl
  | reject => rfl
  | cancel => rfl
  | complete =>
    -- the id is the receive task's, so the announcement is not for the sender
    obtain ⟨hheld, i, hi⟩ := h.resolve_left (by simp)
    have hsend : ¬ w.sendTaskMatches tid = true := fun hm => hheld.send hm i hi
    simp [signalled, hsend]

/-! ### Any number of signals -/

/-- Signals of one kind, given by their forms. -/
def signalledAll (w : World) (io : Io) (kind : SignalKind) (tid : Nat) (forms : List Bool) :
    World :=
  forms.foldl (fun w a => w.signalled io kind a tid) w

theorem Unheld.signalledAll (h : w.Unheld tid) (forms : List Bool) :
    w.signalledAll io kind tid forms = w := by
  induction forms with
  | nil => rfl
  | cons a forms ih =>
    rw [World.signalledAll, List.foldl_cons, h.signalled]
    exact ih

/-- All signals together do what one does. -/
theorem signalledAll_eq (hheld : w.HeldOnce tid)
    (h : kind ≠ .complete ∨ ∃ i, w.Holds tid i) {forms : List Bool} (hne : forms ≠ []) :
    w.signalledAll io kind tid forms = w.signalled io kind true tid := by
  have hform := signalled_form io (h.imp_right fun hi => ⟨hheld, hi⟩)
  obtain ⟨a, forms, rfl⟩ := List.exists_cons_of_ne_nil hne
  rw [signalledAll, List.foldl_cons, hform a true]
  -- from here on nothing changes
  by_cases hcomplete : kind = .complete
  · subst hcomplete
    obtain ⟨i, hi⟩ := h.resolve_left (by simp)
    have hstep : w.signalled io .complete true tid = w.recvTaskComplete io tid := by
      rw [hform true false]
      simp [signalled]
    have hgone : (w.signalled io .complete true tid).Unheld tid := by
      rw [hstep]
      exact unheld_recvTaskComplete hheld hi
    exact hgone.signalledAll forms
  · induction forms with
    | nil => rfl
    | cons b forms ih =>
      rw [List.foldl_cons, signalled_twice hheld hcomplete]
      exact ih (by simp)

/-- Completions without a receive task: only the announcement counts. -/
theorem signalledAll_complete (hheld : w.HeldOnce tid) (hnone : ∀ i, ¬ w.Holds tid i)
    (forms : List Bool) :
    w.signalledAll io .complete tid forms =
      if true ∈ forms then w.signalled io .complete true tid else w := by
  have hframe : w.signalled io .complete false tid = w := by
    simp [signalled, recvTaskComplete, recvTaskFind_eq_none.mpr hnone]
  induction forms with
  | nil => rfl
  | cons a forms ih =>
    cases a with
    | false =>
      rw [signalledAll, List.foldl_cons, hframe]
      simp only [List.mem_cons, Bool.true_eq_false, false_or]
      exact ih
    | true =>
      rw [if_pos List.mem_cons_self, signalledAll, List.foldl_cons]
      -- the sender has waited for it, or nobody has
      by_cases hwaits : w.sendTaskMatches tid = true ∧ w.send.state = .waitComplete
      · have hstep : w.signalled io .complete true tid = w.sendTaskClear := by
          simp [signalled, hwaits]
        rw [hstep]
        exact (unheld_sendTaskClear hheld hwaits.1).signalledAll forms
      · have hstep : w.signalled io .complete true tid = w := by
          rw [signalled, if_neg fun h => hwaits h.2]
          simp [recvTaskComplete, recvTaskFind_eq_none.mpr hnone]
        rw [hstep] at ih ⊢
        rw [ite_self] at ih
        exact ih

/-! ### Kept files -/

/-- Completing an id that keeps a file leaves it with the content the close left. -/
theorem disk_of_keptBy {path content : Bytes} (h : w.keptBy io tid = some (path, content)) :
    ∃ i, w.Holds tid i ∧ (w.recvTaskComplete io tid).disk path = some content := by
  unfold keptBy at h
  cases hfind : w.recvTaskFind tid with
  | none => rw [hfind] at h; exact absurd h (by simp)
  | some i =>
    refine ⟨i, recvTaskFind_eq_some hfind, ?_⟩
    rw [hfind, Option.bind_some] at h
    split_ifs at h with hfull
    · obtain ⟨p, hopen, hp⟩ := Option.bind_eq_some_iff.mp h
      obtain ⟨c, hc, hpc⟩ := Option.map_eq_some_iff.mp hp
      obtain ⟨rfl, rfl⟩ := Prod.mk.inj hpc
      obtain ⟨fh, hfp, rfl⟩ := openPath_eq_some.mp hopen
      have hactive : (w.recv i).fp.isSome = true := by simp [hfp]
      rw [recvTaskComplete, hfind]
      dsimp only
      rw [if_pos hactive, recvTaskFinish, if_pos hfull, recvTaskClear, discardFile]
      cases io.fcloseLoss <;> simp [hfp, fcloseWrite, setDisk, emit, hc]

end World

/-- An event that keeps a file completes its transfer. -/
theorem fileStep_of_completes {w : World} {e : FileEvent} {tid : Nat} {io : Io}
    (h : e.completes w = some (tid, io)) : fileStep w e = w.recvTaskComplete io tid := by
  cases e with
  | announcement text io' =>
    simp only [FileEvent.completes] at h
    split at h
    · rename_i tid' hparse
      split_ifs at h with hsend
      obtain ⟨rfl, rfl⟩ := Prod.mk.inj (Option.some.inj h)
      rw [fileStep, World.fileHandleAnnouncement, hparse]
      dsimp only
      rw [World.announced, if_neg hsend]
    · exact absurd h (by simp)
  | frame type payload io' =>
    simp only [FileEvent.completes] at h
    split_ifs at h with hc
    obtain ⟨rfl, rfl⟩ := Prod.mk.inj (Option.some.inj h)
    rw [fileStep, World.fileFrame_control w io' type hc.1, hc.2]
    rfl
  | _ => exact absurd h (by simp [FileEvent.completes])

/-- A completion signal completes its own transfer. -/
theorem Signal.tid_of_completes {w : World} {tid t : Nat} {loss : Option Bytes}
    {removeOk a : Bool} {e : FileEvent} {io : Io} (he : Signal .complete tid loss removeOk a e)
    (h : e.completes w = some (t, io)) : t = tid := by
  cases he with
  | announcement text io' ann hparse hkind hloss hremove =>
    simp only [FileEvent.completes, hparse] at h
    split at h
    · rename_i tid' htid
      split_ifs at h
      obtain ⟨-, rfl⟩ := Prod.mk.inj (Option.some.inj htid)
      exact (Prod.mk.inj (Option.some.inj h)).1.symm
    · exact absurd h (by simp)
  | frame payload io' h4 htid hloss hremove =>
    simp only [FileEvent.completes] at h
    split_ifs at h
    rw [← (Prod.mk.inj (Option.some.inj h)).1, htid]

/-- A signal for a transfer that no task holds does nothing. -/
theorem signal_unheld {w : World} {tid : Nat} (h : w.Unheld tid) {kind : SignalKind}
    {loss : Option Bytes} {removeOk a : Bool} {e : FileEvent}
    (he : Signal kind tid loss removeOk a e) : fileStep w e = w := by
  rw [he.fileStep_eq w, h.signalled]

theorem fileRun_signals {w : World} {kind : SignalKind} {tid : Nat} {loss : Option Bytes}
    {removeOk : Bool} {forms : List Bool} {events : List FileEvent}
    (h : List.Forall₂ (Signal kind tid loss removeOk) forms events) :
    fileRun w events = w.signalledAll (signalIo loss removeOk) kind tid forms := by
  induction h generalizing w with
  | nil => rfl
  | cons he hrest ih =>
    rw [fileRun, List.foldl_cons, World.signalledAll, List.foldl_cons, he.fileStep_eq w]
    exact ih

/-- **Signals are idempotent.** For an id at most one task holds: all that signals of one kind
    change depends on which forms came at all; except for completions of a send task one signal
    of either form does the same as any number of them.  After a completion that kept a file no
    signal of any kind for that id changes anything. -/
theorem signals_idempotent {w : World} {tid : Nat} (hheld : w.HeldOnce tid) (loss : Option Bytes)
    (removeOk : Bool) :
    (∀ (kind : SignalKind) (forms forms' : List Bool) (events events' : List FileEvent),
      List.Forall₂ (Signal kind tid loss removeOk) forms events →
      List.Forall₂ (Signal kind tid loss removeOk) forms' events' →
      forms ≠ [] → forms' ≠ [] →
      (∀ a, a ∈ forms ↔ a ∈ forms') ∨ kind ≠ .complete ∨ (∃ i, w.Holds tid i) →
        fileRun w events = fileRun w events') ∧
    ∀ (a : Bool) (e : FileEvent) (path content : Bytes) (late : List FileEvent),
      Signal .complete tid loss removeOk a e → e.keeps w = some (path, content) →
      (∀ e' ∈ late, ∃ kind loss' removeOk' b, Signal kind tid loss' removeOk' b e') →
        fileRun w (e :: late) = fileStep w e ∧
          (fileRun w (e :: late)).disk path = some content := by
  constructor
  · intro kind forms forms' events events' hs hs' hne hne' hforms
    rw [fileRun_signals hs, fileRun_signals hs']
    by_cases hsame : kind ≠ .complete ∨ ∃ i, w.Holds tid i
    · -- both runs do what one announcement does
      rw [World.signalledAll_eq hheld hsame hne, World.signalledAll_eq hheld hsame hne']
    · obtain ⟨hkind, hnone⟩ := not_or.mp hsame
      obtain rfl := not_not.mp hkind
      rw [World.signalledAll_complete hheld (not_exists.mp hnone),
        World.signalledAll_complete hheld (not_exists.mp hnone)]
      simp only [hforms.resolve_right hsame true]
  · intro a e path content late he hkeeps hlate
    obtain ⟨⟨t, io⟩, hcompletes, hkept⟩ := Option.bind_eq_some_iff.mp hkeeps
    obtain rfl := he.tid_of_completes hcompletes
    obtain ⟨i, hi, hdisk⟩ := World.disk_of_keptBy hkept
    -- the completion clears the task, and no later signal finds one
    have hstep := fileStep_of_completes hcompletes
    have hgone : (fileStep w e).Unheld t := by
      rw [hstep]
      exact World.unheld_recvTaskComplete hheld hi
    have hrest : ∀ l : List FileEvent, (∀ e' ∈ l, ∃ kind loss' removeOk' b,
        Signal kind t loss' removeOk' b e') → fileRun (fileStep w e) l = fileStep w e := by
      intro l hl
      induction l with
      | nil => rfl
      | cons e' l ih =>
        obtain ⟨kind, loss', removeOk', b, he'⟩ := hl e' List.mem_cons_self
        rw [fileRun, List.foldl_cons, signal_unheld hgone he']
        exact ih fun e'' he'' => hl e'' (List.mem_cons_of_mem e' he'')
    have hrun : fileRun w (e :: late) = fileStep w e := hrest late hlate
    refine ⟨hrun, ?_⟩
    rw [hrun, hstep]
    exact hdisk

/-- The COMPLETE frame and the complete announcement for transfer 7. -/
def completeFrame7 : FileEvent := .frame msgFileComplete (utilsWriteU32Be 7) Io.ok

def completeText7 : FileEvent :=
  .announcement (utf8 "[Server] File transfer #7 complete: 'a' (1/1 bytes transferred).") Io.ok

/-- Transfer 7, received: frame, announcement and frame do what the announcement does alone, and
    a CANCEL frame that comes after the COMPLETE frame leaves the file. -/
theorem signals_idempotent_seven :
    fileRun oneByteReceived [completeFrame7, completeText7, completeFrame7] =
        fileRun oneByteReceived [completeText7] ∧
      (fileRun oneByteReceived
        [completeFrame7, .frame msgFileCancel (utilsWriteU32Be 7) Io.ok]).disk
          (utf8 "downloads/a") = some [65] := by
  have hheld : oneByteReceived.HeldOnce 7 :=
    ⟨by decide +kernel, by decide +kernel⟩
  have hframe : Signal .complete 7 none true false completeFrame7 :=
    .frame _ _ (by decide) (by decide +kernel) rfl rfl
  have htext : Signal .complete 7 none true true completeText7 :=
    .announcement _ _ .complete (by decide +kernel) rfl rfl rfl
  have hcancel : Signal .cancel 7 none true false
      (.frame msgFileCancel (utilsWriteU32Be 7) Io.ok) :=
    .frame _ _ (by decide) (by decide +kernel) rfl rfl
  refine ⟨(signals_idempotent hheld none true).1 .complete [false, true, false] [true] _ _
    (.cons hframe (.cons htext (.cons hframe .nil))) (.cons htext .nil) (by simp) (by simp)
    (Or.inr (Or.inr ⟨0, by decide +kernel⟩)), ?_⟩
  refine ((signals_idempotent hheld none true).2 false _ _ [65] _ hframe (by decide +kernel) ?_).2
  intro e he
  exact ⟨.cancel, none, true, false, by rwa [List.mem_singleton.mp he]⟩

end TCPClient
