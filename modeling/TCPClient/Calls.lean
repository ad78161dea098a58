import TCPClient.Keyboard
import TCPClient.SendProtocol
import TCPClient.Lib.Rounds

namespace TCPClient

open Octets Memory Rounds

/-!
# What the handlers send

Everything the client does besides the tick, as far as the send task is concerned: `Calm` says
that a step sends no CHUNK and no COMPLETE, and that a task at rest stays there unless an INIT
frame is sent.  Frames and lines are handled in calm steps.
-/

/-- No INIT, CHUNK or COMPLETE. -/
def Other (frame : Bytes × Bool) : Prop :=
  isType msgFileInit frame = false ∧ isType msgFileChunk frame = false ∧
    isType msgFileComplete frame = false

/-- No CHUNK and no COMPLETE follows until a task is submitted. -/
def SendTask.Resting (t : SendTask) : Prop := t.busy = false ∨ t.state = .waitComplete

/-- Part of the file has been sent. -/
def SendTask.Begun (t : SendTask) : Prop := t.busy = true ∧ 0 < t.sent

/-- A cleared task has begun nothing. -/
theorem not_begun_zero : ¬ SendTask.zero.Begun := fun h => absurd h.1 SendTask.not_busy_zero

/-- A signal takes no task out of its rest and makes no progress with it. -/
theorem SendStep.calm {t t' : SendTask} {e : FileEvent} (h : SendStep t e t') (he : e.Signal) :
    (t.Resting → t'.Resting) ∧ (t'.Begun → t.Begun) := by
  have hzero : (t.Resting → SendTask.zero.Resting) ∧ (SendTask.zero.Begun → t.Begun) :=
    ⟨fun _ => Or.inl rfl, fun h => absurd h not_begun_zero⟩
  have hmoves {state : SendState} (hbusy : t.busy = true) (hstate : t.state = state)
      (hne : state ≠ .waitComplete) : ¬ t.Resting := by
    rintro (hidle | hwait)
    · exact absurd (hbusy.symm.trans hidle) (by simp)
    · exact hne (hstate.symm.trans hwait)
  -- whatever else a signal does to the task, it clears it or leaves `sent` and the rest alone
  cases h with
  | keep => exact ⟨id, id⟩
  | submit => exact he.elim
  | submitLost => exact hzero
  | assign _ _ _ _ hbusy hstate =>
    exact ⟨fun h => absurd h (hmoves hbusy hstate (by simp)), id⟩
  | accept _ _ hbusy hstate => exact ⟨fun h => absurd h (hmoves hbusy hstate (by simp)), id⟩
  | clear => exact hzero
  | noSuchUser => exact hzero
  | transferState => exact hzero
  | tick => exact he.elim
  | reset => exact hzero

namespace World

/-- From `w` the client comes to `w'` without a CHUNK or COMPLETE frame, and the send task is in
    order there. -/
def Calm (w w' : World) : Prop :=
  SendOk w.send → SendOk w'.send ∧ ∃ frames, w'.framesTried = w.framesTried ++ frames ∧
    Unfired (isType msgFileInit) (isType msgFileChunk) (isType msgFileComplete) fileChunksPerRound
      w.send.Resting w.send.Begun frames w'.send.Resting w'.send.Begun

namespace Calm

variable {w w' w'' : World}

theorem refl (w : World) : Calm w w :=
  fun hok => ⟨hok, [], (List.append_nil _).symm, .refl _ _⟩

theorem trans (h : Calm w w') (h' : Calm w' w'') : Calm w w'' := by
  intro hok
  obtain ⟨hok', frames, hframes, hsilent⟩ := h hok
  obtain ⟨hok'', frames', hframes', hsilent'⟩ := h' hok'
  refine ⟨hok'', frames ++ frames', ?_, hsilent.trans hsilent'⟩
  rw [hframes', hframes, List.append_assoc]

/-- Other frames, and a task that is the same or made no progress. -/
theorem of_others {frames : List (Bytes × Bool)} (hok : SendOk w.send → SendOk w'.send)
    (hframes : w'.framesTried = w.framesTried ++ frames) (hothers : ∀ f ∈ frames, Other f)
    (hrest : w.send.Resting → w'.send.Resting) (hbegun : w'.send.Begun → w.send.Begun) :
    Calm w w' := by
  have hnone {type : UInt8} (h : ∀ f, Other f → isType type f = false) :
      ¬ Has frames (isType type) := by
    rintro ⟨f, hf, htype⟩
    rw [h f (hothers f hf)] at htype
    exact absurd htype (by simp)
  exact fun h => ⟨hok h, frames, hframes,
    .mk (hnone fun _ h => h.2.1) (hnone fun _ h => h.2.2) (fun h => Or.inr (hrest h))
      fun h => ⟨hbegun h, hnone fun _ h => h.1⟩⟩

/-- Other frames that leave the send task alone. -/
theorem of_send_eq {frames : List (Bytes × Bool)} (hsend : w'.send = w.send)
    (hframes : w'.framesTried = w.framesTried ++ frames) (hothers : ∀ f ∈ frames, Other f) :
    Calm w w' :=
  of_others (fun h => hsend ▸ h) hframes hothers (fun h => hsend ▸ h) fun h => hsend ▸ h

/-- Without frames and without a change of the send task there is nothing to account for. -/
theorem of_silent (hsend : w'.send = w.send) (hframes : w'.framesTried = w.framesTried) :
    Calm w w' :=
  of_send_eq hsend (hframes.trans (List.append_nil _).symm) (by simp)

end Calm

/-! ### Signals -/

variable {w w' : World}

/-- A signal, with frames that are none of the counted ones. -/
theorem calm_of_signal {e : FileEvent} (he : e.Signal) {frames : List (Bytes × Bool)}
    (hframes : (fileStep w e).framesTried = w.framesTried ++ frames)
    (hothers : ∀ f ∈ frames, Other f) : Calm w (fileStep w e) := by
  have hstep := (fileStep_spec w e).send
  obtain ⟨hrest, hbegun⟩ := hstep.calm he
  exact .of_others (fun hok => hok.signal he hstep) hframes hothers hrest hbegun

/-- A signal that is not answered. -/
theorem calm_of_silent_signal {e : FileEvent} (he : e.Signal)
    (hframes : (fileStep w e).framesTried = w.framesTried) : Calm w (fileStep w e) :=
  calm_of_signal he (hframes.trans (List.append_nil _).symm) (by simp)

/-- A control frame is none of the three. -/
theorem TriesControl.others {types : List UInt8} {tid : Nat} {ok : Bool} {res : World × Status}
    (h : TriesControl types tid ok w res)
    (htypes : ∀ type ∈ types, type ∈ [msgFileAccept, msgFileReject, msgFileCancel]) :
    ∃ frames, res.1.framesTried = w.framesTried ++ frames ∧ ∀ f ∈ frames, Other f := by
  rcases h with ⟨hframes, -⟩ | ⟨type, hmem, hframes, -⟩
  · exact ⟨[], hframes.trans (List.append_nil _).symm, by simp⟩
  · refine ⟨_, hframes, fun f hf => ?_⟩
    obtain rfl := List.mem_singleton.mp hf
    have htype := htypes type hmem
    simp only [List.mem_cons, List.not_mem_nil, or_false] at htype
    rw [Other, isType_frameBytes, isType_frameBytes, isType_frameBytes]
    rcases htype with rfl | rfl | rfl <;> decide

/-! ### Frames -/

/-- Showing a text sends nothing. -/
theorem calm_displayIncoming (w : World) (text : Bytes) : Calm w (w.displayIncoming text) :=
  .of_silent rfl (by simp)

/-- Neither does printing a line. -/
theorem calm_print (w : World) (text : Bytes) : Calm w (w.print text) := .of_silent rfl (by simp)

/-- An announcement is answered by a REJECT at most. -/
theorem calm_fileHandleAnnouncement (w : World) (io : Io) (text : Bytes) :
    Calm w (w.fileHandleAnnouncement io text) := by
  show Calm w (fileStep w (.announcement text io))
  have hothers : ∃ frames, (w.fileHandleAnnouncement io text).framesTried =
      w.framesTried ++ frames ∧ ∀ f ∈ frames, Other f := by
    rw [fileHandleAnnouncement]
    cases fileParseAnnouncement text with
    | none => exact ⟨[], (List.append_nil _).symm, by simp⟩
    | some res => exact (w.announced_tries io res.1 res.2).others (by simp)
  obtain ⟨frames, hframes, hothers⟩ := hothers
  exact calm_of_signal trivial hframes hothers

/-- An error frame is not answered. -/
theorem calm_fileHandleError (w : World) (io : Io) (code : Nat) :
    Calm w (w.fileHandleError io code) := by
  show Calm w (fileStep w (.error code io))
  exact calm_of_silent_signal trivial (w.framesTried_fileHandleError io code)

/-- The reset sends nothing. -/
theorem calm_fileResetAll (w : World) (io : Slot → Io) : Calm w (w.fileResetAll io) := by
  show Calm w (fileStep w (.reset io))
  exact calm_of_silent_signal trivial (w.framesTried_fileResetAll io)

/-- Control frames are not answered. -/
theorem calm_controlFrame (w : World) (io : Io) (type : UInt8) {payload : Bytes}
    (h4 : payload.length = 4) : Calm w (w.controlFrame io type (utilsReadU32Be payload)) := by
  rw [← fileFrame_control w io type h4]
  show Calm w (fileStep w (.frame type payload io))
  refine calm_of_silent_signal trivial ?_
  rw [fileStep, fileFrame_control w io type h4]
  exact w.framesTried_controlFrame io type _

/-- Frames are answered by a CANCEL at most. -/
theorem calm_fileHandleFrame {io : Io} {type : UInt8} {payload : Ptr} {plen : Nat}
    (h : w.fileHandleFrame io type payload plen = some w') : Calm w w' := by
  unfold fileHandleFrame at h
  split_ifs at h
  · -- a control frame of 4 bytes
    obtain ⟨bytes, hread, rfl⟩ := Option.map_eq_some_iff.mp h
    exact calm_controlFrame w io type (length_read hread)
  · -- INIT fills a receive task
    obtain ⟨fields, -, rfl⟩ := Option.map_eq_some_iff.mp h
    cases fields with
    | none => exact .refl w
    | some f =>
      refine .of_silent ?_ (recvFillInit_tries w f)
      unfold recvFillInit
      cases w.recvInitBest <;> rfl
  · -- CHUNK writes to the open file, or aborts the transfer with a CANCEL
    unfold recvHandleChunk at h
    split_ifs at h
    · obtain rfl := Option.some.inj h
      exact .refl _
    · obtain ⟨tid, -, h⟩ := Option.bind_eq_some_iff.mp h
      obtain ⟨offset, -, h⟩ := Option.bind_eq_some_iff.mp h
      obtain ⟨data, -, rfl⟩ := Option.map_eq_some_iff.mp h
      obtain ⟨frames, hframes, hothers⟩ := (w.recvChunk_tries io (utilsReadU32Be tid)
        (utilsReadU64Be offset) data).others (by simp)
      exact .of_send_eq (send_recvChunk w io _ _ data) hframes hothers
  · obtain rfl := Option.some.inj h
    exact .refl _

/-- **Frames.** -/
theorem calm_appHandleFrame {io : Io} {type : UInt8} {payload : Ptr} {plen : Nat}
    (h : w.appHandleFrame io type payload plen = some w') : Calm w w' := by
  unfold appHandleFrame at h
  split_ifs at h
  · -- a server message is displayed, and may be an announcement
    obtain ⟨text, -, rfl⟩ := Option.map_eq_some_iff.mp h
    exact (calm_displayIncoming w text).trans (calm_fileHandleAnnouncement _ io text)
  · obtain ⟨text, -, rfl⟩ := Option.map_eq_some_iff.mp h
    exact calm_displayIncoming w text
  · obtain ⟨code, -, h⟩ := Option.bind_eq_some_iff.mp h
    obtain ⟨message, -, rfl⟩ := Option.map_eq_some_iff.mp h
    exact (calm_displayIncoming w _).trans (calm_fileHandleError _ io _)
  · obtain rfl := Option.some.inj h
    exact .refl _
  · obtain ⟨head, -, h⟩ := Option.bind_eq_some_iff.mp h
    obtain ⟨users, -, rfl⟩ := Option.map_eq_some_iff.mp h
    exact calm_displayIncoming w _
  · exact calm_fileHandleFrame h
  · obtain rfl := Option.some.inj h
    exact calm_print w _

/-- The login answers no frame. -/
theorem calm_loginHandleFrame {type : UInt8} {payload : Ptr} {outcome : LoginOutcome}
    (h : w.loginHandleFrame type payload = some (w', outcome)) : Calm w w' := by
  unfold loginHandleFrame at h
  split_ifs at h
  · obtain ⟨text, -, hout⟩ := Option.map_eq_some_iff.mp h
    obtain rfl : _ = w' := congrArg Prod.fst hout
    exact calm_displayIncoming w text
  · obtain ⟨code, -, h⟩ := Option.bind_eq_some_iff.mp h
    obtain ⟨message, -, hout⟩ := Option.map_eq_some_iff.mp h
    obtain rfl : _ = w' := congrArg Prod.fst hout
    exact calm_displayIncoming w _
  · obtain rfl : w = w' := congrArg Prod.fst (Option.some.inj h)
    exact .refl _

/-! ### Lines -/

/-- What a builder for another type built is sent. -/
theorem calm_sendBuilt (w : World) (sendOk : Bool) {built : Option Bytes}
    (h : ∀ frame ∈ built, ∀ ok, Other (frame, ok)) : Calm w (w.sendBuilt sendOk built).1 := by
  cases built with
  | none => exact .refl w
  | some frame =>
    have hsent : (w.sendBuilt sendOk (some frame)).1 = w.emit (.send frame sendOk) := by
      cases sendOk <;> rfl
    rw [hsent]
    refine .of_send_eq rfl (w.framesTried_emit _) fun f hf => ?_
    obtain rfl := List.mem_singleton.mp hf
    exact h frame rfl sendOk

/-- The types of the frames that lines and prompts are built into. -/
def lineTypes : List UInt8 :=
  [msgAuth, msgChat, msgPriv, msgGmsg, msgUsers, msgGcreate, msgGjoin, msgGleave]

/-- Frames of these types are not counted. -/
theorem other_of_lineTypes {type : UInt8} (htype : type ∈ lineTypes) (len : Nat) (payload : Bytes)
    (ok : Bool) : Other (frameHeader type len ++ payload, ok) := by
  have hall : (lineTypes.all fun type =>
      type ≠ msgFileInit ∧ type ≠ msgFileChunk ∧ type ≠ msgFileComplete) = true := by decide
  have hne := of_decide_eq_true (List.all_eq_true.mp hall type htype)
  rw [Other, isType_frameHeader, isType_frameHeader, isType_frameHeader]
  exact ⟨decide_eq_false hne.1, decide_eq_false hne.2.1, decide_eq_false hne.2.2⟩

variable {type : UInt8}

/-- A frame that a builder of the commands returns is not counted. -/
theorem other_buildFrame (htype : type ∈ lineTypes) (payload : Bytes) (payloadLen : Nat)
    (outCap : Int) :
    ∀ frame ∈ protocolBuildFrame type payload payloadLen outCap, ∀ ok, Other (frame, ok) := by
  intro frame hframe ok
  rw [protocolBuildFrame] at hframe
  split_ifs at hframe
  · exact absurd hframe (by simp)
  obtain rfl := Option.some.inj hframe
  exact other_of_lineTypes htype _ _ ok

/-- Chat and the commands with one field return such a frame. -/
theorem other_buildText1 (htype : type ∈ lineTypes) (text : Bytes) (outCap : Int) :
    ∀ frame ∈ protocolBuildText1 type text outCap, ∀ ok, Other (frame, ok) := by
  rw [protocolBuildText1]
  split_ifs
  · exact fun frame hframe => absurd hframe (by simp)
  · exact other_buildFrame htype _ _ outCap

/-- So do the commands with two fields. -/
theorem other_buildText2 (htype : type ∈ lineTypes) (part1 part2 : Bytes) (outCap : Int) :
    ∀ frame ∈ protocolBuildText2 type part1 part2 outCap, ∀ ok, Other (frame, ok) := by
  intro frame hframe ok
  rw [protocolBuildText2, buildPayload] at hframe
  split_ifs at hframe
  · exact absurd hframe (by simp)
  · exact absurd hframe (by simp)
  obtain rfl := Option.some.inj hframe
  exact other_of_lineTypes htype _ _ ok

/-- The names go out as AUTH. -/
theorem calm_commandsLogin (w : World) (sendOk : Bool) (names : Option (Bytes × Bytes)) :
    Calm w (w.commandsLogin sendOk names).1 := by
  cases names with
  | none => exact .refl w
  | some names => exact calm_sendBuilt w sendOk (other_buildText2 (by decide) _ _ _)

/-- The group commands send their name. -/
theorem calm_cmdSendSingleName (w : World) (sendOk : Bool) (htype : type ∈ lineTypes)
    (arg usage : Bytes) : Calm w (w.cmdSendSingleName sendOk type arg usage).1 := by
  unfold cmdSendSingleName
  dsimp only
  split_ifs
  · exact calm_print w _
  · exact calm_print w _
  · exact calm_sendBuilt w sendOk (other_buildText1 htype _ _)

/-- `/sendfile` opens a transfer, with the INIT frame, where it sends one. -/
theorem calm_fileCmdSendfile (w : World) (io : SendfileIo) (line : Bytes) :
    Calm w (w.fileCmdSendfile io line).1 := by
  intro hok
  obtain ⟨frames, hmove, hframes, -⟩ := w.fileCmdSendfile_move io line
  refine ⟨hok.move hmove, frames, hframes, ?_⟩
  generalize (w.fileCmdSendfile io line).1.send = t' at hmove ⊢
  generalize (w.fileCmdSendfile io line).2 = status at hmove
  cases hmove with
  | keep => exact .refl _ _
  | signal _ _ he => exact he.elim
  | submit _ _ target filename _ _ hsize =>
    -- the one frame is an INIT, behind which the task may leave its rest
    have hinit (type : UInt8) : Has [(initFrame target filename io.fsize.toNat, io.sendOk)]
        (isType type) ↔ msgFileInit = type := by
      simp [Has, initFrame, isType_frameBytes]
    refine .mk (fun h => absurd ((hinit _).mp h) (by decide))
      (fun h => absurd ((hinit _).mp h) (by decide)) (fun _ => Or.inl ((hinit _).mpr rfl))
      fun hbegun => absurd hbegun ?_
    split_ifs
    · exact fun h => absurd h.2 (by simp [SendTask.submitted, SendTask.zero])
    · exact not_begun_zero

/-- `/accept` answers an incoming transfer. -/
theorem calm_fileCmdAccept (w : World) (io : Io) (line : Bytes) :
    Calm w (w.fileCmdAccept io line).1 := by
  unfold fileCmdAccept
  cases commandsParseTidArg (line.drop 7) with
  | none => exact calm_print w _
  | some tid =>
    obtain ⟨frames, hframes, hothers⟩ := (w.acceptTid_tries io tid).others (by simp)
    exact .of_send_eq (send_acceptTid w io tid) hframes hothers

/-- So does `/reject`. -/
theorem calm_fileCmdReject (w : World) (io : Io) (line : Bytes) :
    Calm w (w.fileCmdReject io line).1 := by
  unfold fileCmdReject
  cases commandsParseTidArg (line.drop 7) with
  | none => exact calm_print w _
  | some tid =>
    obtain ⟨frames, hframes, hothers⟩ := (w.rejectTid_tries io tid).others (by simp)
    exact .of_send_eq (send_rejectTid w io tid) hframes hothers

/-- `/cancel` sends a CANCEL frame, which is not counted, and may end the send task. -/
theorem calm_fileCmdCancel (w : World) (io : Io) (line : Bytes) :
    Calm w (w.fileCmdCancel io line).1 := by
  unfold fileCmdCancel
  cases harg : commandsParseTidArg (line.drop 7) with
  | none => exact calm_print w _
  | some tid =>
    obtain ⟨frames, hframes, hothers⟩ := (w.cancelTid_tries io tid).others (by simp)
    by_cases hm : w.sendTaskMatches tid = true
    · -- the task is cleared, or the connection is lost
      obtain ⟨hmove, -⟩ := cancelTid_move harg hm io
      have hcancel : (w.send.Resting → (w.cancelTid io tid).1.send.Resting) ∧
          ((w.cancelTid io tid).1.send.Begun → w.send.Begun) := by
        generalize (w.cancelTid io tid).1.send = t', (w.cancelTid io tid).2 = status,
          [(cancelFrame tid, io.sendOk)] = frames at hmove
        cases hmove with
        | keep => exact ⟨id, id⟩
        | signal _ _ he => exact he.elim
        | cancel =>
          split_ifs
          · exact ⟨fun _ => Or.inl rfl, fun h => absurd h not_begun_zero⟩
          · exact ⟨id, id⟩
      exact .of_others (fun hok => hok.move hmove) hframes hothers hcancel.1 hcancel.2
    · exact .of_send_eq (send_cancelTid hm io) hframes hothers

/-- No command sends a counted frame but for the send task. -/
theorem calm_handleCommand (w : World) (io : LineIo) (line : Bytes) :
    Calm w (w.handleCommand io line).1 := by
  apply w.handleCommand_cases io line (P := fun res => Calm w res.1)
  case priv =>
    intro _
    rw [cmdPriv]
    cases commandsParsePriv line maxUsernameLen with
    | none => exact calm_print w _
    | some args => exact calm_sendBuilt w _ (other_buildText2 (by decide) _ _ _)
  case gmsg =>
    intro _
    rw [cmdGmsg]
    cases commandsParseGmsg line maxGroupNameLen with
    | none => exact calm_print w _
    | some args => exact calm_sendBuilt w _ (other_buildText2 (by decide) _ _ _)
  case users => exact fun _ => calm_sendBuilt w _ (other_buildFrame (by decide) _ _ _)
  case gcreate => exact fun _ => calm_cmdSendSingleName w _ (by decide) _ _
  case gjoin => exact fun _ => calm_cmdSendSingleName w _ (by decide) _ _
  case gleave => exact fun _ => calm_cmdSendSingleName w _ (by decide) _ _
  case sendfile => exact fun _ => calm_fileCmdSendfile w _ _
  case accept => exact fun _ => calm_fileCmdAccept w _ _
  case reject => exact fun _ => calm_fileCmdReject w _ _
  case cancel => exact fun _ => calm_fileCmdCancel w _ _
  case unknown => exact fun _ => calm_print w

/-- The help text is printed line by line. -/
theorem tasks_uiPrintHelp (w : World) : w.uiPrintHelp.tasks = w.tasks := by
  have hprint (l : List Bytes) (v : World) : (l.foldl print v).tasks = v.tasks := by
    induction l generalizing v with
    | nil => rfl
    | cons text l ih => exact ih (v.print text)
  exact hprint helpLines w

/-- **Lines.** -/
theorem calm_commandsHandleLine (w : World) (io : LineIo) (line : Bytes) :
    Calm w (w.commandsHandleLine io line (w, .ok)).world := by
  cases line with
  | nil => exact .refl w
  | cons b rest =>
    rw [commandsHandleLine]
    split_ifs
    · exact .refl w
    · exact .of_silent (congrArg Tasks.send (tasks_uiPrintHelp w)) (framesTried_uiPrintHelp w)
    · exact .refl w
    · exact calm_handleCommand w io _
    · exact calm_sendBuilt w _ (other_buildText1 (by decide) _ _)

end World
end TCPClient
