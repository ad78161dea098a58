import TCPClient.Inside

namespace TCPClient

open Octets Memory Trace

/-!
# The login as a protocol

`LoginStep` is the exchange of `login_loop`: names are sent in one frame, and then an answer is
shown that refuses them or ends the login.  `login_handshake` says that up to the Welcome a session
does this and nothing else: no other frame, no file, no transfer.
-/

/-! ### The exchange -/

inductive LoginStage where
  | asking
  | awaiting
  | welcomed
  | lost
  deriving DecidableEq, Repr

/-- The frame of `commands_login`. -/
def authFrame (names : Bytes × Bytes) (hfit : NamesFit names) : Frame :=
  ⟨msgAuth, names.1 ++ [0] ++ names.2 ++ [0], by
    obtain ⟨huser, hpass⟩ := hfit
    simp only [maxUsernameLen, maxPasswordLen] at huser hpass
    simp only [List.length_append, List.length_singleton]
    omega⟩

/-- The builder of `commands_login` makes this frame of the names. -/
theorem protocolBuildAuth_eq {names : Bytes × Bytes} (hfit : NamesFit names) :
    protocolBuildText2 msgAuth names.1 names.2
      (protoHeaderSize + maxUsernameLen + maxPasswordLen) = some (authFrame names hfit).encode := by
  refine buildPayload_eq (authFrame names hfit) ?_
  obtain ⟨huser, hpass⟩ := hfit
  simp only [maxUsernameLen, maxPasswordLen] at huser hpass
  simp only [authFrame, List.length_append, List.length_singleton, protoHeaderSize,
    maxUsernameLen, maxPasswordLen]
  omega

/-- What may be done at which stage. -/
inductive LoginStep : LoginStage → Effect → LoginStage → Prop where
  | sent (names : Bytes × Bytes) (hfit : NamesFit names) :
      LoginStep .asking (.send (authFrame names hfit).encode true) .awaiting
  | failed (names : Bytes × Bytes) (hfit : NamesFit names) :
      LoginStep .asking (.send (authFrame names hfit).encode false) .lost
  | refused (code : Nat) (message : Bytes) :
      LoginStep .awaiting
        (.incoming ((utf8 "错误(" ++ (decimal code ++ (utf8 "): " ++ message))).take 1023)) .asking
  | welcomed (text : Bytes) : LoginStep .awaiting (.incoming text) .welcomed

/-- The exchange has come to a stage, and nothing else has been done. -/
structure World.LoginOnly (disk : Bytes → Option Bytes) (stage : LoginStage) (w : World) :
    Prop where
  exchange : Run LoginStep .asking w.log stage
  tasks : w.tasks = (World.init disk).tasks
  disk : w.disk = disk

/-- The exchange stands in front of all that has been done, and ended with the Welcome. -/
def World.LoggedIn (w : World) : Prop :=
  ∃ front back, w.log = front ++ back ∧ Run LoginStep .asking front .welcomed

/-- What a phase of the session says about the exchange. -/
def World.LoginAt (disk : Bytes → Option Bytes) : Phase → World → Prop
  | .prompting => World.LoginOnly disk .asking
  | .waiting => World.LoginOnly disk .awaiting
  | .running => World.LoggedIn
  | .stopped => fun w => ∃ stage, stage ≠ .welcomed ∧ w.LoginOnly disk stage

namespace World

variable {disk : Bytes → Option Bytes} {w w' : World} {Q : Io → Prop}

/-- The log only grows. -/
theorem Does.log_prefix (h : Does Q w w') : w.log <+: w'.log := by
  refine h.invariant (P := fun v => w.log <+: v.log) (fun v a _ hv => hv.trans ?_)
    (List.prefix_refl _)
  cases a with
  | file e =>
    have hbehind : fileStep v e = (fileStep { v with log := [] } e).behind v.log :=
      fileRun_eq_behind v [e]
    rw [act, hbehind, log_behind]
    exact List.prefix_append _ _
  | print text => exact List.prefix_append _ _
  | incoming text => exact List.prefix_append _ _
  | send frame ok => exact List.prefix_append _ _

theorem LoggedIn.does (h : w.LoggedIn) (hdoes : Does Q w w') : w'.LoggedIn := by
  obtain ⟨front, back, hlog, hrun⟩ := h
  obtain ⟨more, hmore⟩ := hdoes.log_prefix
  exact ⟨front, back ++ more, by rw [← hmore, hlog, List.append_assoc], hrun⟩

/-- One more effect of the exchange. -/
theorem LoginOnly.emit {stage stage' : LoginStage} (h : w.LoginOnly disk stage) {x : Effect}
    (hstep : LoginStep stage x stage') : (w.emit x).LoginOnly disk stage' :=
  ⟨h.exchange.append (.single hstep), h.tasks, h.disk⟩

/-- Names are sent. -/
theorem LoginOnly.login (h : w.LoginOnly disk .asking) {names : Bytes × Bytes}
    (hfit : NamesFit names) (sendOk : Bool) :
    LoginAt disk
      (if decide ((w.commandsLogin sendOk (some names)).2 = .ok) then .waiting else .stopped)
      (w.commandsLogin sendOk (some names)).1 := by
  rw [commandsLogin, protocolBuildAuth_eq hfit]
  cases sendOk with
  | true => exact h.emit (.sent names hfit)
  | false => exact ⟨.lost, by simp, h.emit (.failed names hfit)⟩

/-- The answer is shown. -/
theorem LoginOnly.answer (h : w.LoginOnly disk .awaiting) {type : UInt8} {payload : Ptr}
    {res : World × LoginOutcome} (hres : w.loginHandleFrame type payload = some res) :
    LoginAt disk (loginPhase (loginOutcome type)) res.1 := by
  unfold loginHandleFrame at hres
  unfold loginOutcome
  split_ifs at hres ⊢
  · obtain ⟨text, -, rfl⟩ := Option.map_eq_some_iff.mp hres
    exact ⟨_, [], (List.append_nil _).symm, h.exchange.append (.single (.welcomed text))⟩
  · obtain ⟨code, -, hres⟩ := Option.bind_eq_some_iff.mp hres
    obtain ⟨message, -, rfl⟩ := Option.map_eq_some_iff.mp hres
    exact h.emit (.refused (utilsReadU16Be code) message)
  · obtain rfl := Option.some.inj hres
    exact h

theorem LoginAt.stop {phase : Phase} (hphase : phase ≠ .running) (h : LoginAt disk phase w) :
    LoginAt disk .stopped w := by
  cases phase with
  | prompting => exact ⟨.asking, by simp, h⟩
  | waiting => exact ⟨.awaiting, by simp, h⟩
  | running => exact absurd rfl hphase
  | stopped => exact h

end World

/-! ### The session -/

theorem keepsOn_login (env : Surroundings) (disk : Bytes → Option Bytes) :
    env.client.KeepsOn (fun _ => True) fun phase k => ∀ w ∈ k.state.1, w.LoginAt disk phase where
  login k f rest _ h w' hw' := by
    obtain ⟨w, hw, hhandled⟩ := Option.bind_eq_some_iff.mp (Option.mem_def.mp hw')
    obtain ⟨res, hres, rfl⟩ := Option.map_eq_some_iff.mp hhandled
    exact (h w hw).answer hres
  frame k f rest _ h w' hw' := by
    obtain ⟨w, hw, hhandled⟩ := Option.bind_eq_some_iff.mp (Option.mem_def.mp hw')
    exact (h w hw).does (World.does_appHandleFrame (Q := fun _ => True) trivial hhandled)
  reset k h w' hw' := by
    obtain ⟨w, hw, rfl⟩ := Option.map_eq_some_iff.mp (Option.mem_def.mp hw')
    exact (h w hw).does (.file (Q := fun _ => True) (.reset env.resetIo) fun _ => trivial)
  stop _ _ hphase h w hw := (h w hw).stop hphase

theorem keepsIn_login (disk : Bytes → Option Bytes) (e : ConsoleEvent) :
    e.toEvent.KeepsIn fun phase k => ∀ w ∈ k.state.1, w.LoginAt disk phase := by
  cases e with
  | names io =>
    intro k h
    have hfits := Reading.fits .names k.stdin
    have hlogin : (Reading.names.read.run k.stdin).1 = .login (readNames.run k.stdin).1 := rfl
    rw [Keyboard.take]
    generalize Reading.names.read.run k.stdin = res at hfits hlogin ⊢
    obtain ⟨input, stdin⟩ := res
    obtain rfl : input = _ := hlogin
    obtain ⟨stdin₀, inputs, ⟨state, ios⟩⟩ := k
    -- the end of the input, or names
    cases hnames : (readNames.run stdin₀).1 with
    | none => exact fun w hw => (h w hw).stop (by simp)
    | some names =>
      rw [hnames] at hfits
      cases state with
      | none => exact fun w hw => (Option.not_mem_none w hw).elim
      | some w =>
        intro w' hw'
        obtain rfl := Option.some.inj hw'
        exact (h w rfl).login hfits io.sendOk
  | poll gRunning result =>
    have hrest (before : Option World) : (ConsoleEvent.poll gRunning result).toEvent.Keeps
        (DoesFrom (fun _ => True) before) :=
      keeps_consoleEvent (by unfold ConsoleEvent.AllIo; split <;> trivial)
    have hkeeps {k k' : Console} (hdoes : DoesFrom (fun _ => True) k.state.1 k')
        (h : ∀ w ∈ k.state.1, w.LoggedIn) : ∀ w ∈ k'.state.1, w.LoggedIn := by
      intro w' hw'
      obtain ⟨w, hw, hdoes⟩ := hdoes.does w' hw'
      exact (h w hw).does hdoes
    have hrefl (k : Console) : DoesFrom (fun _ => True) k.state.1 k :=
      ⟨fun _ => trivial, fun w hw => ⟨w, hw, .refl _ w⟩⟩
    cases result with
    | interrupted => trivial
    | failed => trivial
    | timeout io => exact fun k h => hkeeps (hrest _ k (hrefl k)) h
    | ready socket stdin =>
      cases stdin with
      | none => trivial
      | some io => exact fun k h => hkeeps (hrest _ k (hrefl k)) h

/-- In every session the world is where its phase is. -/
theorem stands_login (env : Surroundings) (events : List ConsoleEvent) :
    (env.session events).Stands (fun phase k => ∀ w ∈ k.state.1, w.LoginAt env.disk phase)
      (env.loggedIn events) := by
  refine Session.run_frames (keepsOn_login env env.disk) (fun v hv => ?_) (fun e he => ?_)
    fun _ _ _ _ => trivial
  · obtain rfl := Option.some.inj hv
    exact ⟨.nil _, rfl, rfl⟩
  · obtain ⟨e, -, rfl⟩ := List.mem_map.mp he
    exact keepsIn_login env.disk e

/-- **The login.** Whatever the server sends, the user types and the outside answers, however the
    stream is cut, and as long as no frame is read past the bytes that were received: a session
    that has not come to the event loop has sent nothing but the names, one frame for each refusal
    that was shown and at most one more, has touched no file and has no transfer; and one that has
    come there did so by showing the answer to such a frame. -/
theorem login_handshake {env : Surroundings} {events : List ConsoleEvent} {w : World}
    (hw : w ∈ env.world events) :
    w.LoginAt env.disk
      (if env.loggedIn events then .running else (env.session events).phase) :=
  (stands_login env events).state w hw

theorem login_handshake_acceptance :
    ∃ w ∈ eve.world acceptance, eve.loggedIn acceptance = true ∧
      w.openPath 0 = some (utf8 "downloads/b") ∧ w.LoggedIn := by
  obtain ⟨w, hw, hopen⟩ := exists_acceptance
  have hreached : eve.loggedIn acceptance = true := by decide
  have hlogin := login_handshake hw
  rw [hreached] at hlogin
  exact ⟨w, hw, hreached, hopen, hlogin⟩

end TCPClient
