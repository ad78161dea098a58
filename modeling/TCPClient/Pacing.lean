import TCPClient.Calls
import TCPClient.SessionMap

namespace TCPClient

open Octets Memory Cover Rounds

/-!
# The pace at which a file is sent

A session of the client as a run of rounds, one for each event, and the frames each of them
sends.  CHUNK and COMPLETE frames are sent after a timeout of `poll` only.  The main result is
`send_pacing`: from one timeout to the next at most two CHUNK frames are sent, and COMPLETE is
sent later than every CHUNK of its transfer.
-/

/-! ### A tick -/

/-- The longest CHUNK frame. -/
def chunkFrameMax : Nat := protoHeaderSize + 12 + fileChunkDataMax

/-- What a tick sends are chunks that fit their frame, or a CANCEL. -/
theorem TickChunks.frames {io : TickIo} {fuel : Nat} {t t' : SendTask}
    {frames : List (Bytes × Bool)} {status : Status}
    (h : TickChunks io fuel t t' frames status) :
    ∀ f ∈ frames, (∃ p : Write, p.2.length ≤ fileChunkDataMax ∧ f.1 = chunkFrame t.tid p) ∨
      f.1 = cancelFrame t.tid := by
  have hnext (t : SendTask) (hread : (t.nextData io).length = t.nextLen) (ok : Bool) :
      ∃ p : Write, p.2.length ≤ fileChunkDataMax ∧ (t.nextChunk io, ok).1 = chunkFrame t.tid p :=
    ⟨(t.sent, t.nextData io), hread.le.trans (min_le_left _ _), rfl⟩
  induction h with
  | stop => exact fun f hf => absurd hf (by simp)
  | sent mark hmore hread hrest ih =>
    -- a chunk that went out, and the rest of the loop
    intro f hf
    rcases List.mem_cons.mp hf with rfl | hf
    · exact Or.inl (hnext _ hread true)
    · exact ih f hf
  | lost fuel t hmore hread =>
    intro f hf
    obtain rfl := List.mem_singleton.mp hf
    exact Or.inl (hnext t hread false)
  | short fuel t hmore hread ok =>
    -- `fread` delivered too little, and the transfer is cancelled
    intro f hf
    obtain rfl := List.mem_singleton.mp hf
    exact Or.inr rfl

theorem TickChunks.length_le {io : TickIo} {fuel : Nat} {t t' : SendTask}
    {frames : List (Bytes × Bool)} {status : Status}
    (h : TickChunks io fuel t t' frames status) : frames.length ≤ fuel := by
  induction h with
  | stop => exact Nat.zero_le _
  | sent mark hmore hread hrest ih => exact Nat.succ_le_succ ih
  | lost => exact Nat.succ_le_succ (Nat.zero_le _)
  | short => exact Nat.succ_le_succ (Nat.zero_le _)

theorem TickChunks.begun {io : TickIo} {fuel : Nat} {t t' : SendTask}
    {frames : List (Bytes × Bool)} {status : Status}
    (h : TickChunks io fuel t t' frames status) (hbegun : t'.Begun) :
    Has frames (isType msgFileChunk) ∨ t.Begun := by
  have hchunk (t : SendTask) (rest : List (Bytes × Bool)) :
      Has ((t.nextChunk io, true) :: rest) (isType msgFileChunk) :=
    ⟨_, List.mem_cons_self, isType_frameHeader _ _ _ _ _⟩
  cases h with
  | stop fuel t hend =>
    refine Or.inr ?_
    rw [SendTask.ended] at hbegun
    split_ifs at hbegun
    · exact hbegun
    · exact hbegun
  | sent => exact Or.inl (hchunk t _)
  | lost => exact absurd hbegun not_begun_zero
  | short => exact absurd hbegun not_begun_zero

/-- **A tick is a round of a paced sender**, unless it reports a lost connection. -/
theorem SendMove.tick_round {t t' : SendTask} {io : TickIo} {frames : List (Bytes × Bool)}
    {status : Status} (hok : SendOk t) (h : SendMove t (.tick io) t' frames status) :
    Round (isType msgFileInit) (isType msgFileChunk) (isType msgFileComplete) fileChunksPerRound
      True t.Resting t.Begun frames (status = .lost ∨ t'.Resting) t'.Begun := by
  cases h with
  | keep => exact .idle Or.inr id
  | signal _ _ he => exact he.elim
  | complete io hbusy hdone =>
    -- the state was DONE, so chunks were sent in an earlier tick, and none is sent in this one
    have hcomplete (type : UInt8) :
        Has [(completeFrame t.tid, io.sendOk 0)] (isType type) ↔ msgFileComplete = type := by
      simp [Has, completeFrame, isType_frameBytes]
    have hbegun : t.Begun := by
      refine ⟨hbusy, ?_⟩
      rw [hok.done (Or.inl hdone)]
      exact (hok.size hbusy).1
    have hmoving : ¬ t.Resting := by
      rintro (hidle | hwait)
      · exact absurd (hbusy.symm.trans hidle) (by simp)
      · exact absurd (hdone.symm.trans hwait) (by simp)
    have hpiece : ¬ Has [(completeFrame t.tid, io.sendOk 0)] (isType msgFileChunk) :=
      fun h => absurd ((hcomplete _).mp h) (by decide)
    have hopening : ¬ Has [(completeFrame t.tid, io.sendOk 0)] (isType msgFileInit) :=
      fun h => absurd ((hcomplete _).mp h) (by decide)
    refine ⟨fun h => absurd trivial h, fun _ => ⟨hopening, ?_⟩, fun _ => ⟨hpiece, hbegun, ?_⟩,
      fun h => absurd h hmoving, fun _ => Or.inr ⟨hbegun, hopening⟩⟩
    · rw [countP_eq_zero_iff.mpr hpiece]
      exact Nat.zero_le _
    · cases io.sendOk 0 with
      | true => exact Or.inr (Or.inr rfl)
      | false => exact Or.inl rfl
  | chunks io _ _ _ hbusy hactive hchunks =>
    -- the state was ACTIVE; behind the last chunk it is DONE, and COMPLETE has to wait
    have hkind (type : UInt8) (hchunk : msgFileChunk ≠ type) (hcancel : msgFileCancel ≠ type) :
        ¬ Has frames (isType type) := by
      rintro ⟨⟨frame, ok⟩, hf, htype⟩
      rcases hchunks.frames _ hf with ⟨p, -, rfl⟩ | rfl
      · rw [chunkFrame, isType_frameHeader, decide_eq_true_eq] at htype
        exact hchunk htype
      · rw [cancelFrame, isType_frameBytes, decide_eq_true_eq] at htype
        exact hcancel htype
    have hopening := hkind msgFileInit (by decide) (by decide)
    have hclosing := hkind msgFileComplete (by decide) (by decide)
    have hmoving : ¬ t.Resting := by
      rintro (hidle | hwait)
      · exact absurd (hbusy.symm.trans hidle) (by simp)
      · exact absurd (hactive.symm.trans hwait) (by simp)
    exact ⟨fun h => absurd trivial h,
      fun _ => ⟨hopening, List.countP_le_length.trans hchunks.length_le⟩,
      fun h => absurd h hclosing, fun h => absurd h hmoving,
      fun h => (hchunks.begun h).imp_right fun h => ⟨h, hopening⟩⟩

/-- The CHUNK frames of a tick. -/
theorem SendMove.tick_size {t t' : SendTask} {io : TickIo} {frames : List (Bytes × Bool)}
    {status : Status} (h : SendMove t (.tick io) t' frames status) :
    ∀ f ∈ frames, isType msgFileChunk f → f.1.length ≤ chunkFrameMax := by
  cases h with
  | keep => exact fun f hf => absurd hf (by simp)
  | signal _ _ he => exact he.elim
  | complete =>
    intro f hf htype
    obtain rfl := List.mem_singleton.mp hf
    rw [completeFrame, isType_frameBytes] at htype
    exact absurd htype (by decide)
  | chunks io _ _ _ _ _ hchunks =>
    rintro ⟨frame, ok⟩ hf htype
    rcases hchunks.frames _ hf with ⟨p, hp, rfl⟩ | rfl
    · rw [chunkFrame, List.length_append, length_frameHeader, length_chunkPayload]
      simp only [chunkFrameMax, protoHeaderSize]
      omega
    · rw [cancelFrame, isType_frameBytes] at htype
      exact absurd htype (by decide)

theorem World.appTick_move {w : World} (hok : SendOk w.send) (io : TickIo) :
    ∃ frames status, SendMove w.send (.tick io) (w.appTick io).1.send frames status ∧
      (w.appTick io).1.framesTried = w.framesTried ++ frames ∧
      ((w.appTick io).2 = true → status = .ok) := by
  obtain ⟨frames, hmove, hframes⟩ := fileSendTick_move hok io
  rw [appTick_eq]
  exact ⟨frames, _, hmove, hframes, of_decide_eq_true⟩

/-! ### The client -/

/-- What one `poll` of the client leads to: after a timeout what `file_send_tick` meets, else
    what the socket gives and what `app_handle_stdin` reads. -/
inductive ClientPoll where
  | interrupted
  | failed
  | timeout (io : TickIo)
  | ready (socket : Option (Bool × RecvResult)) (stdin : Option (LineIo × Input))

/-- What happens to the client next: names are entered in `login_loop`, or `poll` returns. -/
inductive ClientEvent where
  | credentials (sendOk : Bool) (names : Option (Bytes × Bytes))
  | poll (gRunning : Bool) (result : ClientPoll)

/-- `app_run` behind a timeout. -/
def tickHandler (io : TickIo) (s : Option World × (Nat → Io)) :
    (Option World × (Nat → Io)) × Bool :=
  match s.1 with
  | none => (s, true)
  | some w => ((some (w.appTick io).1, s.2), (w.appTick io).2)

def ClientPoll.toPoll : ClientPoll → PollResult (Option World × (Nat → Io))
  | .interrupted => .interrupted
  | .failed => .failed
  | .timeout io => .timeout (tickHandler io)
  | .ready socket stdin =>
    .ready socket (stdin.map fun read s => (clientLines read.1).act s read.2)

def ClientEvent.toEvent : ClientEvent → SessionEvent (Option World × (Nat → Io))
  | .credentials sendOk names => entersNames sendOk names
  | .poll gRunning result => .poll gRunning result.toPoll

/-- `poll` returned 0. -/
def ClientEvent.TimesOut : ClientEvent → Prop
  | .poll _ (.timeout _) => True
  | _ => False

/-! ### One round -/

/-- The state comes from `before` in calm steps. -/
def CalmFrom (before : Option World) (s : Option World × (Nat → Io)) : Prop :=
  ∀ w' ∈ s.1, ∃ w ∈ before, w.Calm w'

theorem CalmFrom.refl (s : Option World × (Nat → Io)) : CalmFrom s.1 s :=
  fun w hw => ⟨w, hw, .refl w⟩

theorem CalmFrom.bind {before : Option World} {s : Option World × (Nat → Io)}
    (h : CalmFrom before s) {f : World → Option World} (hf : ∀ w, ∀ w' ∈ f w, w.Calm w')
    (ios : Nat → Io) : CalmFrom before (s.1.bind f, ios) := by
  intro w'' hw''
  obtain ⟨w', hw', hf'⟩ := Option.bind_eq_some_iff.mp hw''
  obtain ⟨w, hw, hcalm⟩ := h w' hw'
  exact ⟨w, hw, hcalm.trans (hf w' w'' hf')⟩

theorem keeps_clientHandlers (resetIo : Slot → Io) (before : Option World) :
    (clientHandlers resetIo).Keeps (CalmFrom before) where
  login s type payload h := by
    refine h.bind (fun w w' hw' => ?_) s.2
    obtain ⟨res, hres, rfl⟩ := Option.map_eq_some_iff.mp hw'
    exact World.calm_loginHandleFrame hres
  frame s type payload plen h := h.bind (fun w w' hw' => World.calm_appHandleFrame hw') _
  reset s h := by
    intro w'' hw''
    obtain ⟨w', hw', rfl⟩ := Option.map_eq_some_iff.mp hw''
    obtain ⟨w, hw, hcalm⟩ := h w' hw'
    exact ⟨w, hw, hcalm.trans (World.calm_fileResetAll w' resetIo)⟩

theorem calmFrom_act {before : Option World} {s : Option World × (Nat → Io)}
    (h : CalmFrom before s) (io : LineIo) (input : Input) :
    CalmFrom before ((clientLines io).act s input).1 := by
  have hnext {f : World → World} (hf : ∀ w, w.Calm (f w)) :
      CalmFrom before (s.1.bind fun w => some (f w), s.2) :=
    h.bind (fun w w' hw' => Option.some.inj hw' ▸ hf w) s.2
  obtain ⟨state, ios⟩ := s
  cases input with
  | eof => exact h
  | tooLong => exact h
  | line text =>
    cases state with
    | none => exact h
    | some w => exact hnext fun w => w.calm_commandsHandleLine io text
  | login names =>
    cases names with
    | none => exact h
    | some names =>
      cases state with
      | none => exact h
      | some w => exact hnext fun w => w.calm_commandsLogin io.sendOk (some names)

theorem keeps_toEvent {e : ClientEvent} (he : ¬ e.TimesOut) (before : Option World) :
    e.toEvent.Keeps (CalmFrom before) := by
  cases e with
  | credentials sendOk names =>
    intro s h
    obtain ⟨state, ios⟩ := s
    cases state with
    | none => exact h
    | some w =>
      exact h.bind (f := fun w => some (w.commandsLogin sendOk names).1)
        (fun w w' hw' => Option.some.inj hw' ▸ w.calm_commandsLogin sendOk names) ios
  | poll gRunning result =>
    cases result with
    | interrupted => trivial
    | failed => trivial
    | timeout io => exact absurd trivial he
    | ready socket stdin =>
      cases stdin with
      | none => trivial
      | some read => exact fun s h => calmFrom_act h read.1 read.2

namespace Session

/-- The frames handed to `conn_send_all` so far. -/
def tried (s : Session (Option World × (Nat → Io))) : List (Bytes × Bool) :=
  match s.app.state.1 with
  | none => []
  | some w => w.framesTried

/-- The send task is in order. -/
def InOrder (s : Session (Option World × (Nat → Io))) : Prop :=
  ∀ w ∈ s.app.state.1, SendOk w.send

/-- No CHUNK and no COMPLETE can be sent before an INIT. -/
def RestingAt (s : Session (Option World × (Nat → Io))) : Prop :=
  s.phase = .stopped ∨ ∀ w ∈ s.app.state.1, w.send.Resting

/-- Part of a file has been sent. -/
def BegunAt (s : Session (Option World × (Nat → Io))) : Prop := ∃ w ∈ s.app.state.1, w.send.Begun

/-- The step from `s` to `s'` is a round of a paced sender. -/
structure PacedStep (fires : Prop) (s s' : Session (Option World × (Nat → Io))) : Prop where
  inOrder : s'.InOrder
  round : Round (isType msgFileInit) (isType msgFileChunk) (isType msgFileComplete)
    fileChunksPerRound fires s.RestingAt s.BegunAt (s'.tried.drop s.tried.length) s'.RestingAt
    s'.BegunAt
  size : ∀ f ∈ s'.tried.drop s.tried.length, isType msgFileChunk f → f.1.length ≤ chunkFrameMax

variable {fires : Prop} {s s' : Session (Option World × (Nat → Io))}

theorem PacedStep.of_state_eq (hok : s.InOrder) (hstate : s'.app.state = s.app.state)
    (hstopped : s.phase = .stopped → s'.phase = .stopped) : PacedStep fires s s' := by
  have hnil : s'.tried.drop s.tried.length = [] := by
    rw [tried, tried, hstate]
    exact List.drop_length
  refine ⟨?_, ?_, ?_⟩
  · rw [InOrder, hstate]
    exact hok
  · rw [hnil, RestingAt, RestingAt, BegunAt, BegunAt, hstate]
    exact .idle (Or.imp_left hstopped) id
  · rw [hnil]
    exact fun f hf => absurd hf (by simp)

/-- Once the state is lost nothing is recorded any more. -/
theorem PacedStep.of_none (hnone : s'.app.state.1 = none) : PacedStep fires s s' := by
  have hnil : s'.tried.drop s.tried.length = [] := by
    have htried : s'.tried = [] := by rw [tried, hnone]
    rw [htried]
    exact List.drop_nil
  refine ⟨?_, ?_, ?_⟩
  · rw [InOrder, hnone]
    exact fun w hw => absurd hw (by simp)
  · rw [hnil, RestingAt, RestingAt, BegunAt, BegunAt, hnone]
    exact .idle (fun _ => Or.inr fun w hw => absurd hw (by simp))
      fun ⟨w, hw, _⟩ => absurd hw (by simp)
  · rw [hnil]
    exact fun f hf => absurd hf (by simp)

/-- A step that moves the client from `w` to `w'`. -/
theorem PacedStep.of_worlds {w w' : World} (hw : s.app.state.1 = some w)
    (hw' : s'.app.state.1 = some w') (hlive : s.phase ≠ .stopped) (hok : SendOk w'.send)
    {frames : List (Bytes × Bool)} (hframes : w'.framesTried = w.framesTried ++ frames)
    {resting' : Prop}
    (hround : Round (isType msgFileInit) (isType msgFileChunk) (isType msgFileComplete)
      fileChunksPerRound fires w.send.Resting w.send.Begun frames resting' w'.send.Begun)
    (hresting : resting' → s'.RestingAt)
    (hsize : ∀ f ∈ frames, isType msgFileChunk f → f.1.length ≤ chunkFrameMax) :
    PacedStep fires s s' := by
  have hnew : s'.tried.drop s.tried.length = frames := by
    rw [tried, tried, hw, hw']
    show w'.framesTried.drop w.framesTried.length = frames
    rw [hframes, List.drop_left]
  refine ⟨?_, ?_, ?_⟩
  · intro v hv
    rw [hw'] at hv
    exact Option.some.inj hv ▸ hok
  · rw [hnew]
    refine hround.imp Iff.rfl (fun h => ?_) (fun h => ⟨w, hw, h⟩) hresting fun h => ?_
    · exact (h.resolve_left hlive) w hw
    · obtain ⟨v, hv, hbegun⟩ := h
      rw [hw'] at hv
      exact Option.some.inj hv ▸ hbegun
  · rw [hnew]
    exact hsize

/-- Without a timeout the step is calm. -/
theorem pacedStep_of_calm (hok : s.InOrder) (hfires : ¬ fires)
    (hcalm : CalmFrom s.app.state.1 s'.app.state) (hstopped : s.phase = .stopped → s' = s) :
    PacedStep fires s s' := by
  by_cases hover : s.phase = .stopped
  · rw [hstopped hover]
    exact .of_state_eq hok rfl id
  -- a step of the client, in which the socket and standard input may both have been handled
  cases hw' : s'.app.state.1 with
  | none => exact .of_none hw'
  | some w' =>
    obtain ⟨w, hw, hcalm⟩ := hcalm w' hw'
    obtain ⟨hok', frames, hframes, hsilent⟩ := hcalm (hok w hw)
    have hround := hsilent.imp (iff_of_false hfires not_false) id id (id : w'.send.Resting → _) id
    refine .of_worlds hw hw' hover hok' hframes hround (fun h => Or.inr ?_) ?_
    · intro v hv
      rw [hw'] at hv
      exact Option.some.inj hv ▸ h
    · exact fun f hf htype => absurd ⟨f, hf, htype⟩ (hsilent.silent not_false).1

/-- After a timeout of the event loop the tick is made. -/
theorem pacedStep_tick {app : App (Option World × (Nat → Io))}
    (hok : InOrder ⟨app, .running⟩) (resetIo : Slot → Io) (gRunning : Bool) (io : TickIo) :
    PacedStep True ⟨app, .running⟩
      (step (clientHandlers resetIo) ⟨app, .running⟩
        (.poll gRunning (.timeout (tickHandler io)))) := by
  by_cases hlive : app.running ∧ gRunning
  swap
  · rw [step_over _ hlive]
    exact .of_state_eq hok rfl fun h => absurd h (by simp)
  rw [step_live _ hlive, appRound]
  cases hw : app.state.1 with
  | none =>
    have htick : tickHandler io app.state = (app.state, true) := by
      rw [tickHandler, hw]
    rw [htick]
    exact .of_state_eq hok rfl fun h => absurd h (by simp)
  | some w =>
    obtain ⟨frames, status, hmove, hframes, hstatus⟩ := World.appTick_move (hok w hw) io
    have htick : tickHandler io app.state =
        ((some (w.appTick io).1, app.state.2), (w.appTick io).2) := by
      rw [tickHandler, hw]
    rw [htick]
    generalize w.appTick io = res at hmove hframes hstatus ⊢
    obtain ⟨w', go⟩ := res
    have hround := hmove.tick_round (hok w hw)
    have hok' := (hok w hw).move hmove
    cases go with
    | true =>
      -- the loop goes on, so the status was not a lost connection
      refine .of_worlds hw rfl (by simp) hok' hframes hround (fun h => ?_) hmove.tick_size
      refine Or.inr fun v hv => Option.some.inj hv ▸ h.resolve_left ?_
      rw [hstatus rfl]
      simp
    | false =>
      exact .of_worlds hw rfl (by simp) hok' hframes hround (fun _ => Or.inl rfl) hmove.tick_size

/-- **Step lemma.** -/
theorem pacedStep (hok : s.InOrder) (resetIo : Slot → Io) (e : ClientEvent) :
    PacedStep e.TimesOut s (s.step (clientHandlers resetIo) e.toEvent) := by
  by_cases htimeout : e.TimesOut
  swap
  · refine pacedStep_of_calm hok htimeout ?_ fun hover => ?_
    · have hevents : ∀ e' ∈ [e.toEvent], e'.Keeps (CalmFrom s.app.state.1) := by
        simpa using keeps_toEvent htimeout s.app.state.1
      exact run_invariant (keeps_clientHandlers resetIo s.app.state.1) hevents (CalmFrom.refl _)
    · obtain ⟨app, phase⟩ := s
      subst hover
      exact step_stopped _ app _
  cases e with
  | credentials => exact htimeout.elim
  | poll gRunning result =>
    cases result with
    | interrupted => exact htimeout.elim
    | failed => exact htimeout.elim
    | ready => exact htimeout.elim
    | timeout io =>
      obtain ⟨app, phase⟩ := s
      cases phase with
      | prompting => exact .of_state_eq hok rfl id
      | waiting =>
        -- a timeout of the login makes no tick
        refine .of_state_eq hok ?_ fun h => absurd h (by simp)
        show (loginPoll (clientHandlers resetIo) app gRunning
          (.timeout (tickHandler io))).app.state = app.state
        rw [loginPoll]
        split_ifs <;> rfl
      | running => exact pacedStep_tick hok resetIo gRunning io
      | stopped =>
        refine .of_state_eq hok ?_ fun _ => ?_ <;>
          rw [step_stopped]

end Session

/-! ### The run -/

/-- The pace of a client, by the frames of its rounds.  CHUNK and COMPLETE are sent in rounds with
    a timeout only; in rounds with at most one timeout among them at most `FILE_CHUNKS_PER_ROUND`
    CHUNK frames are sent, at most 131034 bytes; a transfer whose COMPLETE is sent has had a CHUNK,
    and all of them in earlier rounds.  An INIT begins a transfer. -/
structure KeepsPace (sent : Nat → List (Bytes × Bool)) (timesOut : Nat → Prop) : Prop where
  timeouts : ∀ k, Has (sent k) (isType msgFileChunk) ∨ Has (sent k) (isType msgFileComplete) →
    timesOut k
  window : ∀ i j, FiresOnce timesOut i j →
    countIn sent (isType msgFileChunk) i j ≤ fileChunksPerRound ∧
      sizeIn sent (isType msgFileChunk) (fun frame => frame.1.length) i j ≤ 131034
  chunked : ∀ k, Has (sent k) (isType msgFileComplete) →
    ∃ j, Has (sent j) (isType msgFileChunk) ∧
      exchange sent (isType msgFileInit) j = exchange sent (isType msgFileInit) k
  completeLater : ∀ j k, Has (sent k) (isType msgFileComplete) →
    Has (sent j) (isType msgFileChunk) →
      exchange sent (isType msgFileInit) j = exchange sent (isType msgFileInit) k → j < k

section Run

variable (resetIo : Slot → Io) (disk : Bytes → Option Bytes) (ios : Nat → Io)
  (events : List ClientEvent)

/-- The client behind its first `k` rounds. -/
def clientAfter (k : Nat) : Session (Option World × (Nat → Io)) :=
  (Session.connect (some (World.init disk), ios)).run (clientHandlers resetIo)
    ((events.take k).map ClientEvent.toEvent)

/-- The frames that the rounds hand to `conn_send_all`. -/
def roundFrames (k : Nat) : List (Bytes × Bool) :=
  (clientAfter resetIo disk ios events (k + 1)).tried.drop
    (clientAfter resetIo disk ios events k).tried.length

/-- `poll` times out in round `k`. -/
def TimesOutAt (k : Nat) : Prop := ∃ e ∈ events[k]?, e.TimesOut

theorem clientAfter_succ (k : Nat) :
    clientAfter resetIo disk ios events (k + 1) =
      match events[k]? with
      | none => clientAfter resetIo disk ios events k
      | some e =>
        (clientAfter resetIo disk ios events k).step (clientHandlers resetIo) e.toEvent := by
  rw [clientAfter, clientAfter, List.take_add_one]
  cases events[k]? with
  | none => simp
  | some e => simp [Session.run]

theorem inOrder_clientAfter (k : Nat) : (clientAfter resetIo disk ios events k).InOrder := by
  induction k with
  | zero => exact fun w hw => Option.some.inj hw ▸ .zero
  | succ k ih =>
    rw [clientAfter_succ]
    cases events[k]? with
    | none => exact ih
    | some e => exact (Session.pacedStep ih resetIo e).inOrder

/-- **Every round of the client is one of a paced sender.** -/
theorem pacedStep_clientAfter (k : Nat) :
    Session.PacedStep (TimesOutAt events k) (clientAfter resetIo disk ios events k)
      (clientAfter resetIo disk ios events (k + 1)) := by
  have hok := inOrder_clientAfter resetIo disk ios events k
  rw [clientAfter_succ, TimesOutAt]
  cases events[k]? with
  | none => exact .of_state_eq hok rfl id
  | some e =>
    have hfires : (∃ e' ∈ some e, e'.TimesOut) = e.TimesOut := by simp
    rw [hfires]
    exact Session.pacedStep hok resetIo e

theorem paced_client : Paced (isType msgFileInit) (isType msgFileChunk) (isType msgFileComplete)
    fileChunksPerRound (TimesOutAt events)
    (fun k => (clientAfter resetIo disk ios events k).RestingAt)
    (fun k => (clientAfter resetIo disk ios events k).BegunAt)
    (roundFrames resetIo disk ios events) where
  started := by
    rintro ⟨w, hw, hbegun⟩
    obtain rfl : World.init disk = w := Option.some.inj hw
    exact not_begun_zero hbegun
  round k := (pacedStep_clientAfter resetIo disk ios events k).round

/-- **Send pacing.** The client keeps the pace in every run, whatever `poll` reports and whatever
    the socket and standard input bring, up to a frame that is read past the bytes that were
    received: what such a read makes of the client is not followed. -/
theorem send_pacing :
    KeepsPace (roundFrames resetIo disk ios events) (TimesOutAt events) where
  timeouts k hk := by
    by_contra hnot
    have hround := (paced_client resetIo disk ios events).round k
    exact not_or.mpr (hround.silent hnot) hk
  window i j honce := by
    have hcount := (paced_client resetIo disk ios events).window_le honce
    have hsize : sizeIn (roundFrames resetIo disk ios events) (isType msgFileChunk)
        (fun frame => frame.1.length) i j ≤
          countIn (roundFrames resetIo disk ios events) (isType msgFileChunk) i j *
            chunkFrameMax :=
      sizeIn_le (fun k => (pacedStep_clientAfter resetIo disk ios events k).size) i j
    refine ⟨hcount, hsize.trans ((Nat.mul_le_mul_right _ hcount).trans ?_)⟩
    decide
  chunked k hcomplete := by
    obtain ⟨j, -, hchunk, heq⟩ :=
      (paced_client resetIo disk ios events).piece_before_closing hcomplete
    exact ⟨j, hchunk, heq⟩
  completeLater j k hcomplete hchunk heq :=
    (paced_client resetIo disk ios events).lt_of_closing hcomplete hchunk heq

end Run

/-- A file of one byte: names and Welcome, `/sendfile`, announcement, ACCEPT, two timeouts. -/
def oneByteRounds : List ClientEvent :=
  let receives (type : UInt8) (payload : Bytes) : ClientEvent :=
    .poll true (.ready (some (true, .data (frameBytes type payload))) none)
  let tick : ClientEvent := .poll true (.timeout ⟨fun _ _ => [65], fun _ => true⟩)
  [.credentials true someUser, receives msgServerMsg (utf8 "Welcome" ++ [0]),
    .poll true (.ready none (some (
      ⟨true, ⟨true, true, 1, true, true, SendfileIo.fsizeLong_one⟩, Io.ok⟩,
      .line (utf8 "/sendfile bob a")))),
    receives msgServerMsg ((Announcement.waiting (utf8 "a") 1 (utf8 "bob")).text 5 ++ [0]),
    receives msgFileAccept (utilsWriteU32Be 5), tick, tick]

/-- The frames of its rounds. -/
def oneByteFrames : Nat → List (Bytes × Bool) :=
  roundFrames (fun _ => Io.ok) (fun _ => none) (fun _ => Io.ok) oneByteRounds

/-- Its CHUNK is sent in round 5, its COMPLETE in round 6. -/
theorem send_pacing_one_byte :
    oneByteFrames 5 = [(chunkFrame 5 (0, [65]), true)] ∧
      oneByteFrames 6 = [(completeFrame 5, true)] ∧
      ∀ j, Has (oneByteFrames j) (isType msgFileChunk) →
        exchange oneByteFrames (isType msgFileInit) j =
          exchange oneByteFrames (isType msgFileInit) 6 → j < 6 := by
  have hsent : oneByteFrames 6 = [(completeFrame 5, true)] := by decide +kernel
  refine ⟨by decide +kernel, hsent, fun j => ?_⟩
  apply (send_pacing (fun _ => Io.ok) (fun _ => none) (fun _ => Io.ok) oneByteRounds).completeLater
  show Has (oneByteFrames 6) (isType msgFileComplete)
  rw [hsent]
  exact ⟨_, List.mem_singleton.mpr rfl, rfl⟩

end TCPClient
