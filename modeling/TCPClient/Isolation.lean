import TCPClient.FileInvariant

namespace TCPClient

open Octets

/-!
# Events for one transfer and the tasks of the others

`isolated_iff` decides, for every reachable state and every event addressed to a transfer, when
all other tasks are left as they were: always, except that the id 0 also names a send task that
has no id yet.
-/

/-- Only tasks of transfer `tid` differ between the two states: every other slot of the receive
    table and the file it has open, and a send task that has another id or none yet, are the
    same. -/
def Isolated (w w' : World) (tid : Nat) : Prop :=
  (∀ i, ¬ ((w.recv i).busy = true ∧ (w.recv i).tid = tid) →
    w'.recv i = w.recv i ∧ ∀ h, (w.recv i).fp = some h → w'.disk h.path = w.disk h.path) ∧
  (w.send.busy = true → (w.send.tid ≠ tid ∨ w.send.state = .pendingTid) → w'.send = w.send)

/-! ### Files -/

/-- An event that leaves an open task as it was leaves its file as it was. -/
theorem FileStep.disk_of_kept {w w' : World} (hs : FileStep w w')
    (hcoh : CoherentTable w.recv) {i : Slot} {fh : FileHandle} (hfp : (w.recv i).fp = some fh)
    (hkept : w'.recv i = w.recv i) : w'.disk fh.path = w.disk fh.path := by
  cases hs with
  | carried h => exact (h i fh (by rw [hkept, hfp])).2.1
  | opened k saveName path hrecv hfree hdisk hwrites =>
    exact absurd hfp (by simp [hfree i])
  | written k fh' offset data hfp' hspan hrecv hdisk hwrites =>
    -- the task that wrote is this one, and its counter has grown
    have hki : k = i := hcoh.oneActive k i (by simp [hfp']) (by simp [hfp])
    subst hki
    rw [hrecv, Function.update_self] at hkept
    have hgrown : (w.recv k).received + data.length = (w.recv k).received :=
      congrArg RecvTask.received hkept
    have hempty : data.length = 0 := by omega
    simp [fileRecvSpanCheck, hempty] at hspan

/-! ### Tasks -/

/-- An event changes no slot of another transfer. -/
theorem TableStep.recv_other {r r' : Table} {seq seq' : Nat} {e : FileEvent} {tid : Nat}
    (hs : TableStep r seq e r' seq') (haddr : e.addressee = some tid) {i : Slot}
    (hother : ¬ ((r i).busy = true ∧ (r i).tid = tid)) : r' i = r i := by
  have hslot : ∀ {k : Slot} (t : RecvTask), (r k).busy = true →
      e.addressee = some (r k).tid → Function.update r k t i = r i := by
    intro k t hbusy hk
    refine Function.update_of_ne ?_ t r
    rintro rfl
    rw [haddr] at hk
    exact hother ⟨hbusy, (Option.some.inj hk).symm⟩
  cases hs with
  | keep => rfl
  | clear _ k hbusy hk =>
    rcases hk with hk | ⟨io, rfl⟩
    · exact hslot _ hbusy hk
    · exact absurd haddr (by simp [FileEvent.addressee])
  | reset io _ hr => exact absurd haddr (by simp [FileEvent.addressee])
  | announce text io tid' k hparse hfree =>
    exact absurd haddr (by simp [FileEvent.addressee, hparse])
  | fill payload io f k hfields hlen hwaits hfirst =>
    exact absurd haddr (by simp [FileEvent.addressee, hlen])
  | opened _ k saveName path hk hbusy hinit hsize hnone hname hpath => exact hslot _ hbusy hk
  | written _ k fh offset len hk hbusy hfp hspan => exact hslot _ hbusy hk

/-- An event changes a send task of another transfer only through the id 0. -/
theorem SendStep.send_other {t t' : SendTask} {e : FileEvent} {tid : Nat}
    (hs : SendStep t e t') (haddr : e.addressee = some tid)
    (hother : t.tid ≠ tid ∨ t.state = .pendingTid)
    (hclear : t.tid = tid → t.state = .pendingTid → e.clearsSend = false) : t' = t := by
  cases hs with
  | keep => rfl
  | accept _ ha hb hstate =>
    rw [haddr] at ha
    rcases hother with h | h
    · exact absurd (Option.some.inj ha).symm h
    · rw [hstate] at h; exact absurd h (by simp)
  | clear _ ha hb hwhy =>
    rw [haddr] at ha
    have htid : t.tid = tid := (Option.some.inj ha).symm
    rcases hother with h | h
    · exact absurd htid h
    · rcases hwhy with hwhy | hwhy
      · rw [hclear htid h] at hwhy; exact absurd hwhy (by simp)
      · rw [h] at hwhy; exact absurd hwhy.2 (by simp)
  | submit line io target filename size hfree hsize =>
    exact absurd haddr (by simp [FileEvent.addressee])
  | submitLost line io hfree => exact absurd haddr (by simp [FileEvent.addressee])
  | assign text io tid' hparse hb hstate =>
    exact absurd haddr (by simp [FileEvent.addressee, hparse])
  | noSuchUser io hb hstate => exact absurd haddr (by simp [FileEvent.addressee])
  | transferState io hb => exact absurd haddr (by simp [FileEvent.addressee])
  | tick io _ hb hstate ht => exact absurd haddr (by simp [FileEvent.addressee])
  | reset io hb => exact absurd haddr (by simp [FileEvent.addressee])

/-- The clearing events do clear the send task they match. -/
theorem send_of_clearsSend {w : World} {e : FileEvent} {tid : Nat}
    (haddr : e.addressee = some tid) (hm : w.sendTaskMatches tid = true)
    (hc : e.clearsSend = true) : (fileStep w e).send = SendTask.zero := by
  have hrejected : (w.rejected tid).send = SendTask.zero := by
    rw [World.rejected, if_pos hm]
    simp
  have hcancelled : ∀ io, (w.cancelled io tid).send = SendTask.zero := by
    intro io
    rw [World.cancelled, if_pos hm]
    simp
  cases e with
  | cancel line io =>
    have harg : commandsParseTidArg (line.drop 7) = some tid := haddr
    have hok : io.sendOk = true := hc
    rw [fileStep, World.fileCmdCancel, harg]
    dsimp only
    rw [World.cancelTid, if_pos hm, World.sendTid_eq, hok]
    simp
  | announcement text io =>
    rw [FileEvent.addressee] at haddr
    rw [FileEvent.clearsSend] at hc
    rw [fileStep, World.fileHandleAnnouncement]
    cases hparse : fileParseAnnouncement text with
    | none => rw [hparse] at haddr; exact absurd haddr (by simp)
    | some res =>
      obtain ⟨kind, tid'⟩ := res
      rw [hparse] at haddr hc
      dsimp only at haddr ⊢
      split_ifs at haddr with hkind
      rw [Option.some.inj haddr]
      cases kind with
      | rejected => exact hrejected
      | cancelled => exact hcancelled io
      | cancelledDisc => exact hcancelled io
      | _ => exact absurd hc (by simp)
  | frame type payload io =>
    simp only [FileEvent.clearsSend, decide_eq_true_eq] at hc
    obtain ⟨h4, htype⟩ := hc
    rw [FileEvent.addressee, if_pos h4] at haddr
    split_ifs at haddr with ht
    rw [fileStep, World.fileFrame_control w io type h4, Option.some.inj haddr]
    rcases htype with rfl | rfl
    · exact hrejected
    · exact hcancelled io
  | _ => exact absurd hc (by simp [FileEvent.clearsSend])

/-- **Isolation.** In a reachable state an event addressed to transfer `tid` leaves all tasks of
    other transfers alone, except exactly when it is one of the clearing events for id 0 and
    meets a send task that has no id yet. -/
theorem isolated_iff {w : World} (hw : Reachable w) (e : FileEvent) {tid : Nat}
    (haddr : e.addressee = some tid) :
    Isolated w (fileStep w e) tid ↔
      ¬ (tid = 0 ∧ w.send.busy = true ∧ w.send.state = .pendingTid ∧ e.clearsSend = true) := by
  have hcoh := hw.coherent
  constructor
  · rintro ⟨-, hsend⟩ ⟨rfl, hbusy, hstate, hclear⟩
    have hm : w.sendTaskMatches 0 = true :=
      World.sendTaskMatches_iff.mpr ⟨hbusy, hcoh.pendingTid hstate⟩
    -- the cleared task is not busy, the kept one is
    have hkept := hsend hbusy (Or.inr hstate)
    rw [send_of_clearsSend haddr hm hclear] at hkept
    rw [← hkept] at hbusy
    exact absurd hbusy SendTask.not_busy_zero
  · intro hcond
    obtain ⟨htable, hsend, hfiles⟩ := fileStep_spec w e
    constructor
    · intro i hother
      have hkept := htable.recv_other haddr hother
      exact ⟨hkept, fun fh hfp =>
        (hfiles hcoh.toCoherentTable).disk_of_kept hcoh.toCoherentTable hfp hkept⟩
    · intro hbusy hother
      refine hsend.send_other haddr hother fun htid hstate => ?_
      -- a task without an id carries the id 0
      by_contra hclear
      refine hcond ⟨?_, hbusy, hstate, by simpa using hclear⟩
      rw [← htid]
      exact hcoh.pendingTid hstate

/-- A client that has just submitted a file. -/
def justSubmitted : World :=
  fileStep (World.init fun _ => none)
    (.sendfile (utf8 "/sendfile bob a") ⟨true, true, 1, true, true, by decide⟩)

/-- `/cancel 7` leaves the submitted file alone. -/
theorem isolated_iff_cancel_seven :
    (FileEvent.cancel (utf8 "/cancel 7") Io.ok).addressee = some 7 ∧
      Isolated justSubmitted (fileStep justSubmitted (.cancel (utf8 "/cancel 7") Io.ok)) 7 :=
  ⟨by decide +kernel, (isolated_iff (Reachable.step _ (Reachable.init _))
    (.cancel (utf8 "/cancel 7") Io.ok) (by decide +kernel)).mpr (by decide +kernel)⟩

/-- `/cancel 0` cancels the submitted file, which has no id yet. -/
theorem cancel_zero_not_isolated :
    Reachable justSubmitted ∧ (FileEvent.cancel (utf8 "/cancel 0") Io.ok).addressee = some 0 ∧
      ¬ Isolated justSubmitted (fileStep justSubmitted (.cancel (utf8 "/cancel 0") Io.ok)) 0 := by
  refine ⟨Reachable.step _ (Reachable.init _), by decide +kernel, ?_⟩
  rintro ⟨-, hsend⟩
  have hkept := hsend (by decide +kernel) (Or.inr (by decide +kernel))
  exact absurd hkept (by decide +kernel)

end TCPClient
