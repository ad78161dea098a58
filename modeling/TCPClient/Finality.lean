import TCPClient.Pacing
import TCPClient.Reads

namespace TCPClient

open Octets Memory

/-!
# What follows a wrong magic

`app_dispatch` reports a wrong magic by clearing `running`, and `app_handle_socket` answers
`true` all the same: the round in which that happens still looks at standard input.  The main
result is `protocol_error_final_iff`: a wrong magic ends all that the client does exactly when
that round does not bring a line to execute.
-/

section Machine

variable {σ : Type} (client : Handlers σ)

/-- The event up to the end of `app_handle_socket`: standard input is not looked at. -/
def SessionEvent.socketOnly : SessionEvent σ → SessionEvent σ
  | .poll gRunning (.ready socket _) => .poll gRunning (.ready socket none)
  | e => e

/-- The client without the `file_reset_all` behind the login. -/
def Handlers.unreset : Handlers σ := { client with reset := id }

namespace Session

/-- The session as `app_dispatch` leaves it: neither standard input nor `file_reset_all` has had
    its turn. -/
def behindDispatch (s : Session σ) (e : SessionEvent σ) : Session σ :=
  s.step client.unreset e.socketOnly

/-- `app_dispatch`, or the parse loop of the login, meets a wrong magic, and returns at once. -/
def MeetsWrongMagic (s : Session σ) (e : SessionEvent σ) : Prop :=
  .protocolError ∉ s.app.stops ∧ .protocolError ∈ (s.behindDispatch client e).app.stops

/-- Neither the login nor the event loop goes on. -/
def Over (s : Session σ) : Prop := s.phase = .stopped ∨ s.phase = .running ∧ s.app.running = false

/-! ### The end of a session -/

theorem Over.step {s : Session σ} (h : s.Over) (e : SessionEvent σ) :
    (s.step client e).Over ∧ (s.step client e).app = s.app := by
  obtain ⟨app, phase⟩ := s
  rcases h with hstopped | ⟨hrunning, hoff⟩
  · obtain rfl : phase = .stopped := hstopped
    rw [step_stopped]
    exact ⟨Or.inl rfl, rfl⟩
  · obtain rfl : phase = .running := hrunning
    cases e with
    | credentials login => exact ⟨Or.inr ⟨rfl, hoff⟩, rfl⟩
    | poll gRunning result =>
      rw [step_over client fun hlive => absurd (hoff.symm.trans hlive.1) (by simp)]
      exact ⟨Or.inl rfl, rfl⟩

/-- **Run lemma.** Nothing that happens afterwards changes anything. -/
theorem Over.run {s : Session σ} (h : s.Over) (events : List (SessionEvent σ)) :
    (s.run client events).app = s.app := by
  induction events generalizing s with
  | nil => rfl
  | cons e events ih =>
    obtain ⟨hover, happ⟩ := Over.step client h e
    exact (ih hover).trans happ

omit client in
/-- A session that reported a wrong magic is over. -/
theorem RoomInv.ended {s : Session σ} (h : RoomInv s) (hbad : .protocolError ∈ s.app.stops) :
    s.Over := by
  unfold RoomInv at h
  cases hphase : s.phase with
  | prompting =>
    rw [hphase] at h
    exact absurd hbad h.stops.1
  | waiting =>
    rw [hphase] at h
    exact absurd hbad h.stops.1
  | running =>
    rw [hphase] at h
    exact Or.inr ⟨hphase, h.bad hbad⟩
  | stopped => exact Or.inl hphase

/-! ### `file_reset_all` behind the login -/

theorem loginParse_unreset (fuel off : Nat) (app : App σ) :
    loginParse client.unreset fuel off app = loginParse client fuel off app := by
  induction fuel generalizing off app with
  | zero => rfl
  | succ fuel ih =>
    rw [loginParse, loginParse]
    split_ifs
    · cases protocolParse (app.rbuf.drop off) with
      | more => rfl
      | bad => rfl
      | item consumed frame =>
        dsimp only
        rw [ih]
        rfl
    · rfl

theorem loginBatch_reset (app : App σ) :
    loginBatch client app = loginBatch client.unreset app ∨
      loginBatch client app = (loginBatch client.unreset app).map client.reset := by
  rw [loginBatch, loginBatch, loginParse_unreset]
  obtain ⟨app', stop⟩ := loginParse client app.rbuf.length 0 app
  cases stop with
  | none => exact Or.inl rfl
  | some stop =>
    obtain ⟨off, outcome⟩ := stop
    cases outcome with
    | waiting => exact Or.inl rfl
    | retry => exact Or.inl rfl
    | loggedIn => exact Or.inr rfl

/-- A step ends as it would without the reset, or with the reset behind everything else. -/
theorem step_reset (s : Session σ) (e : SessionEvent σ) :
    s.step client e = s.step client.unreset e ∨
      s.step client e = (s.step client.unreset e).map client.reset := by
  obtain ⟨app, phase⟩ := s
  cases e with
  | credentials login => exact Or.inl rfl
  | poll gRunning result =>
    cases phase with
    | prompting => exact Or.inl rfl
    | running => exact Or.inl rfl
    | stopped => exact Or.inl rfl
    | waiting =>
      apply loginPoll_cases (P := fun polled => polled client = polled client.unreset ∨
        polled client = (polled client.unreset).map client.reset)
      case waits => exact Or.inl rfl
      case stops => exact fun app' _ => Or.inl rfl
      case receives => exact fun _ _ _ _ _ _ => loginBatch_reset client _

/-! ### The round that meets a wrong magic -/

variable {client}

theorem MeetsWrongMagic.ended {s : Session σ} {e : SessionEvent σ} (hs : RoomInv s)
    (h : s.MeetsWrongMagic client e) : (s.behindDispatch client e).Over :=
  (roomInv_step client.unreset s e.socketOnly hs).ended h.2

/-- Only `app_dispatch` reports a wrong magic, and `app_handle_socket` answers `true` behind it. -/
theorem pollSocket_of_bad {handle : Handler σ} {app : App σ}
    {socket : Option (Bool × RecvResult)} (hgood : .protocolError ∉ app.stops)
    (hbad : .protocolError ∈ (pollSocket handle app socket).1.stops) :
    (pollSocket handle app socket).2 = true := by
  cases socket with
  | none => rfl
  | some io =>
    have hroom : .protocolError ∉ (appEnsureCapacity app io.1).1.stops := by
      unfold appEnsureCapacity
      split_ifs
      · exact hgood
      · exact not_reported hgood (by simp)
      · exact hgood
      · exact not_reported hgood (by simp)
    revert hbad
    apply appHandleSocket_cases handle (P := fun res => .protocolError ∈ res.1.stops → res.2 = true)
    case full =>
      intro app' hfull hbad
      rw [hfull] at hroom
      exact absurd hbad hroom
    case interrupted => exact fun _ _ _ => rfl
    case ended =>
      intro app' reason hcap hne _ hbad
      rw [hcap] at hroom
      exact absurd hbad (not_reported hroom (Ne.symm hne))
    case received => exact fun _ _ _ _ _ => rfl

/-- A round of the event loop that meets a wrong magic goes on with standard input. -/
theorem MeetsWrongMagic.stdin {app : App σ} {gRunning : Bool}
    {socket : Option (Bool × RecvResult)} {line : σ → σ × Bool}
    (h : MeetsWrongMagic client ⟨app, .running⟩ (.poll gRunning (.ready socket (some line)))) :
    (app.running ∧ gRunning) ∧ (pollSocket client.frame app socket).2 = true ∧
      behindDispatch client ⟨app, .running⟩ (.poll gRunning (.ready socket (some line))) =
        ⟨(pollSocket client.frame app socket).1, .running⟩ ∧
      step client ⟨app, .running⟩ (.poll gRunning (.ready socket (some line))) =
        ⟨(appHandleStdin (pollSocket client.frame app socket).1 line).1,
          if (appHandleStdin (pollSocket client.frame app socket).1 line).2 then .running
          else .stopped⟩ := by
  obtain ⟨hgood, hbad⟩ := h
  replace hbad : .protocolError ∈ (step client.unreset ⟨app, .running⟩
    (.poll gRunning (.ready socket none))).app.stops := hbad
  by_cases hlive : app.running ∧ gRunning
  swap
  · -- a round that is not made meets nothing
    rw [step_over client.unreset hlive] at hbad
    exact absurd hbad hgood
  have hround : appRound client.frame app (.ready socket none) =
      pollSocket client.frame app socket := by
    rw [appRound]
    obtain ⟨app', go⟩ := pollSocket client.frame app socket
    cases go <;> rfl
  have hbehind : step client.unreset ⟨app, .running⟩ (.poll gRunning (.ready socket none)) =
      ⟨(pollSocket client.frame app socket).1,
        if (pollSocket client.frame app socket).2 then .running else .stopped⟩ := by
    rw [step_live client.unreset hlive, ← hround]
    rfl
  rw [hbehind] at hbad
  have hgo : (pollSocket client.frame app socket).2 = true := pollSocket_of_bad hgood hbad
  refine ⟨hlive, hgo, ?_, ?_⟩
  · show step client.unreset ⟨app, .running⟩ (.poll gRunning (.ready socket none)) = _
    rw [hbehind, if_pos hgo]
  · rw [step_live client hlive, appRound]
    generalize pollSocket client.frame app socket = res at hgo ⊢
    obtain ⟨app', go⟩ := res
    obtain rfl : go = true := hgo
    rfl

/-- Everywhere else the step ends behind the dispatch, or behind the reset. -/
theorem step_of_socketOnly {s : Session σ} {e : SessionEvent σ}
    (h : s.step client e = s.step client e.socketOnly) :
    s.step client e = s.behindDispatch client e ∨
      s.step client e = (s.behindDispatch client e).map client.reset :=
  h ▸ step_reset client s e.socketOnly

end Session
end Machine

/-! ### The client -/

/-- What `commands_handle_line` does something with: it returns at once on an empty line. -/
def Input.Acts : Input → Prop
  | .line text => text ≠ []
  | .login _ => True
  | .eof | .tooLong => False

instance (input : Input) : Decidable input.Acts := by
  cases input <;> unfold Input.Acts <;> infer_instance

namespace Session

section Client

variable (resetIo : Slot → Io)

/-- What the user has the client execute in a step: the names entered at the prompts of
    `login_loop`, and the line that `app_handle_stdin` reads behind the socket. -/
def executes (s : Session (Option World × (Nat → Io))) : ClientEvent → List Input
  | .credentials _ names => if s.phase = .prompting then [.login names] else []
  | .poll gRunning (.ready socket (some (_, input))) =>
    if s.phase = .running ∧ (s.app.running ∧ gRunning) ∧
        (pollSocket (clientHandlers resetIo).frame s.app socket).2 = true ∧ input.Acts then
      [input]
    else []
  | _ => []

def executed : Session (Option World × (Nat → Io)) → List ClientEvent → List Input
  | _, [] => []
  | s, e :: events =>
    s.executes resetIo e ++ (s.step (clientHandlers resetIo) e.toEvent).executed events

/-- `app_destroy` in front of `conn_close`. -/
def destroy (closeIo : Slot → Io) (s : Session (Option World × (Nat → Io))) :
    Session (Option World × (Nat → Io)) :=
  ⟨{ s.app with state := (s.app.state.1.map fun w => w.fileResetAll closeIo, s.app.state.2) },
    .stopped⟩

/-- Nothing follows the dispatch in the step `e`, and nothing happens in the steps behind it: no
    frame is dispatched, nothing that the user enters is executed, and nothing is handed to
    `conn_send_all` before the connection is closed. -/
structure Final (s : Session (Option World × (Nat → Io))) (e : ClientEvent)
    (future : List ClientEvent) : Prop where
  calls : (s.run (clientHandlers resetIo) ((e :: future).map ClientEvent.toEvent)).app.calls =
    (s.behindDispatch (clientHandlers resetIo) e.toEvent).app.calls
  executed : s.executed resetIo (e :: future) = []
  tried : ∀ closeIo : Slot → Io,
    ((s.run (clientHandlers resetIo) ((e :: future).map ClientEvent.toEvent)).destroy
      closeIo).tried = (s.behindDispatch (clientHandlers resetIo) e.toEvent).tried

/-- `app_handle_stdin` is given a line to execute. -/
def BringsLine (s : Session (Option World × (Nat → Io))) : ClientEvent → Prop
  | .poll _ (.ready _ (some (_, input))) => s.phase = .running ∧ input.Acts
  | _ => False

variable {resetIo} {s : Session (Option World × (Nat → Io))}

theorem tried_of_app_eq {s' : Session (Option World × (Nat → Io))} (h : s'.app = s.app) :
    s'.tried = s.tried := by
  rw [tried, tried, h]

/-- `file_reset_all` hands nothing to `conn_send_all`. -/
theorem tried_reset (resetIo : Slot → Io) :
    (s.map (clientHandlers resetIo).reset).tried = s.tried := by
  obtain ⟨app, phase⟩ := s
  show tried ⟨app.map (clientHandlers resetIo).reset, phase⟩ = _
  rw [tried, tried, App.map_state]
  obtain ⟨rbuf, rbufCap, running, ⟨state, ios⟩, stops, calls, received⟩ := app
  cases state with
  | none => rfl
  | some w => exact w.framesTried_fileResetAll resetIo

theorem tried_destroy (closeIo : Slot → Io) : (s.destroy closeIo).tried = s.tried :=
  tried_reset closeIo

/-- What is not executed changes nothing. -/
theorem act_of_not_acts (io : LineIo) (state : Option World × (Nat → Io)) {input : Input}
    (h : ¬ input.Acts) : ((clientLines io).act state input).1 = state := by
  cases input with
  | eof => rfl
  | tooLong => rfl
  | login names => exact absurd trivial h
  | line text =>
    obtain rfl : text = [] := not_not.mp h
    obtain ⟨w, ios⟩ := state
    cases w <;> rfl

/-- Where `app_handle_stdin` is not reached, only names can be executed. -/
theorem reads_or_not (resetIo : Slot → Io) (e : ClientEvent) :
    (∃ gRunning socket read, e = .poll gRunning (.ready socket (some read))) ∨
      e.toEvent.socketOnly = e.toEvent ∧ ∀ s : Session (Option World × (Nat → Io)),
        ¬ s.BringsLine e ∧ (s.phase ≠ .prompting → s.executes resetIo e = []) := by
  cases e with
  | credentials sendOk names => exact Or.inr ⟨rfl, fun s => ⟨id, fun h => if_neg h⟩⟩
  | poll gRunning result =>
    cases result with
    | interrupted => exact Or.inr ⟨rfl, fun s => ⟨id, fun _ => rfl⟩⟩
    | failed => exact Or.inr ⟨rfl, fun s => ⟨id, fun _ => rfl⟩⟩
    | timeout io => exact Or.inr ⟨rfl, fun s => ⟨id, fun _ => rfl⟩⟩
    | ready socket stdin =>
      cases stdin with
      | none => exact Or.inr ⟨rfl, fun s => ⟨id, fun _ => rfl⟩⟩
      | some read => exact Or.inl ⟨gRunning, socket, read, rfl⟩

theorem Over.executes (h : s.Over) (e : ClientEvent) : s.executes resetIo e = [] := by
  have hnot : s.phase ≠ .prompting ∧ ¬ (s.phase = .running ∧ s.app.running = true) := by
    rcases h with hstopped | ⟨hrunning, hoff⟩
    · rw [hstopped]
      simp
    · rw [hrunning, hoff]
      simp
  rcases reads_or_not resetIo e with ⟨gRunning, socket, read, rfl⟩ | ⟨-, hnone⟩
  · exact if_neg fun hrun => hnot.2 ⟨hrun.1, hrun.2.1.1⟩
  · exact (hnone s).2 hnot.1

theorem Over.executed (h : s.Over) (events : List ClientEvent) :
    s.executed resetIo events = [] := by
  induction events generalizing s with
  | nil => rfl
  | cons e events ih =>
    obtain ⟨hover, -⟩ := Over.step (clientHandlers resetIo) h e.toEvent
    rw [Session.executed, h.executes, ih hover]
    rfl

/-- A line is executed in the round that meets a wrong magic. -/
theorem MeetsWrongMagic.executes {e : ClientEvent}
    (h : s.MeetsWrongMagic (clientHandlers resetIo) e.toEvent) (hline : s.BringsLine e) :
    s.executes resetIo e ≠ [] := by
  rcases reads_or_not resetIo e with ⟨gRunning, socket, read, rfl⟩ | ⟨-, hnone⟩
  · obtain ⟨app, phase⟩ := s
    obtain ⟨hphase, hacts⟩ := hline
    obtain rfl : phase = .running := hphase
    obtain ⟨hlive, hgo, -⟩ := MeetsWrongMagic.stdin h
    show ite _ _ _ ≠ []
    rw [if_pos ⟨rfl, hlive, hgo, hacts⟩]
    simp
  · exact absurd hline (hnone s).1

/-- Nothing is met before names are entered. -/
theorem MeetsWrongMagic.not_prompting {e : ClientEvent}
    (h : s.MeetsWrongMagic (clientHandlers resetIo) e.toEvent) : s.phase ≠ .prompting := by
  obtain ⟨hgood, hbad⟩ := h
  obtain ⟨app, phase⟩ := s
  rintro hprompting
  obtain rfl : phase = .prompting := hprompting
  rcases reads_or_not resetIo e with ⟨gRunning, socket, read, rfl⟩ | ⟨hsocket, -⟩
  · exact hgood hbad
  · rw [behindDispatch, hsocket] at hbad
    cases e with
    | credentials sendOk names => exact hgood hbad
    | poll gRunning result => exact hgood hbad

theorem MeetsWrongMagic.executes_nil {e : ClientEvent}
    (h : s.MeetsWrongMagic (clientHandlers resetIo) e.toEvent) (hline : ¬ s.BringsLine e) :
    s.executes resetIo e = [] := by
  rcases reads_or_not resetIo e with ⟨gRunning, socket, read, rfl⟩ | ⟨-, hnone⟩
  · exact if_neg fun hrun => hline ⟨hrun.1, hrun.2.2.2⟩
  · exact (hnone s).2 h.not_prompting

/-- `t` has ended, with the calls and the frames of `s`. -/
structure Quiet (s t : Session (Option World × (Nat → Io))) : Prop where
  ended : t.Over
  calls : t.app.calls = s.app.calls
  tried : t.tried = s.tried

/-- A line that is not executed. -/
theorem quiet_appHandleStdin {app : App (Option World × (Nat → Io))} (hoff : app.running = false)
    (io : LineIo) {input : Input} (h : ¬ input.Acts) :
    Quiet ⟨app, .running⟩
      ⟨(appHandleStdin app fun state => (clientLines io).act state input).1,
        if (appHandleStdin app fun state => (clientLines io).act state input).2 then .running
        else .stopped⟩ := by
  have hact := act_of_not_acts io app.state h
  rw [appHandleStdin]
  generalize (clientLines io).act app.state input = res at hact ⊢
  obtain ⟨state, go⟩ := res
  obtain rfl : state = app.state := hact
  cases go with
  | true => exact ⟨Or.inr ⟨rfl, hoff⟩, rfl, rfl⟩
  | false => exact ⟨Or.inl rfl, rfl, rfl⟩

/-- A round that meets a wrong magic, and brings no line to execute, ends as the dispatch left
    it. -/
theorem MeetsWrongMagic.quiet {e : ClientEvent} (hs : RoomInv s)
    (h : s.MeetsWrongMagic (clientHandlers resetIo) e.toEvent) (hline : ¬ s.BringsLine e) :
    Quiet (s.behindDispatch (clientHandlers resetIo) e.toEvent)
      (s.step (clientHandlers resetIo) e.toEvent) := by
  have hover := h.ended hs
  -- where standard input is not looked at, at most the reset follows the dispatch
  have hsocket (heq : s.step (clientHandlers resetIo) e.toEvent =
      s.step (clientHandlers resetIo) e.toEvent.socketOnly) :
      Quiet (s.behindDispatch (clientHandlers resetIo) e.toEvent)
        (s.step (clientHandlers resetIo) e.toEvent) := by
    rcases step_of_socketOnly heq with hstep | hstep
    · rw [hstep]
      exact ⟨hover, rfl, rfl⟩
    · rw [hstep]
      exact ⟨hover, rfl, tried_reset resetIo⟩
  rcases reads_or_not resetIo e with ⟨gRunning, socket, read, rfl⟩ | ⟨heq, -⟩
  swap
  · exact hsocket (by rw [heq])
  obtain ⟨app, phase⟩ := s
  cases phase with
  | prompting => exact hsocket rfl
  | waiting => exact hsocket rfl
  | stopped => exact hsocket rfl
  | running =>
    -- standard input is read, but nothing is done with it
    have hacts : ¬ read.2.Acts := fun hacts => hline ⟨rfl, hacts⟩
    obtain ⟨-, -, hbehind, hstep⟩ := MeetsWrongMagic.stdin h
    have hleft : Over ⟨(pollSocket (clientHandlers resetIo).frame app socket).1, .running⟩ := by
      rw [← hbehind]
      exact hover
    have hquiet := quiet_appHandleStdin (hleft.resolve_left (by simp)).2 read.1 hacts
    exact (congrArg₂ Quiet hbehind hstep).mpr hquiet

/-- **Finality of a protocol error.**  In every session that met a wrong magic, whatever happens
    from then on: nothing follows exactly when the round that met it brings no line to execute. -/
theorem protocol_error_final_iff (resetIo : Slot → Io) (disk : Bytes → Option Bytes)
    (ios : Nat → Io) (past : List ClientEvent) (e : ClientEvent) :
    let s := (connect (some (World.init disk), ios)).run (clientHandlers resetIo)
      (past.map ClientEvent.toEvent)
    s.MeetsWrongMagic (clientHandlers resetIo) e.toEvent →
      ((∀ future, s.Final resetIo e future) ↔ ¬ s.BringsLine e) := by
  intro s hmeets
  constructor
  · intro hfinal hline
    have hexecuted : s.executed resetIo [e] = [] := (hfinal []).executed
    rw [Session.executed, Session.executed, List.append_nil] at hexecuted
    exact hmeets.executes hline hexecuted
  · intro hline future
    have hquiet := hmeets.quiet (roomInv_run (clientHandlers resetIo) _ _) hline
    -- the session is over behind this round, so the rest of the run changes nothing
    have happ : (s.run (clientHandlers resetIo) ((e :: future).map ClientEvent.toEvent)).app =
        (s.step (clientHandlers resetIo) e.toEvent).app := hquiet.ended.run _ _
    constructor
    · rw [happ]
      exact hquiet.calls
    · rw [Session.executed, hmeets.executes_nil hline, hquiet.ended.executed]
      rfl
    · intro closeIo
      rw [tried_destroy, tried_of_app_eq happ]
      exact hquiet.tried

end Client

/-- A frame with a wrong magic, and the client behind a login in one piece. -/
def wrongMagic : Bytes := [0, 0, 0, 0, 0]

def loggedInRounds : List ClientEvent :=
  [.credentials true someUser, .poll true (.ready (some (true, .data welcomeFrame.encode)) none)]

def behindLogin : Session (Option World × (Nat → Io)) :=
  (connect (some (World.init fun _ => none), fun _ => Io.ok)).run (clientHandlers fun _ => Io.ok)
    (loggedInRounds.map ClientEvent.toEvent)

/-- Nothing on standard input. -/
theorem protocol_error_final_socket :
    ∀ future, behindLogin.Final (fun _ => Io.ok)
      (.poll true (.ready (some (true, .data wrongMagic)) none)) future :=
  (protocol_error_final_iff (fun _ => Io.ok) (fun _ => none) (fun _ => Io.ok) loggedInRounds
    (.poll true (.ready (some (true, .data wrongMagic)) none))
    ⟨by decide, by decide⟩).mpr id

/-- `/users` is on standard input in the same round: it is executed, and its frame is sent. -/
theorem users_behind_wrong_magic :
    let e : ClientEvent := .poll true (.ready (some (true, .data wrongMagic)) (some
      (⟨true, ⟨true, true, 1, true, true, SendfileIo.fsizeLong_one⟩, Io.ok⟩,
        .line (utf8 "/users"))))
    behindLogin.MeetsWrongMagic (clientHandlers fun _ => Io.ok) e.toEvent ∧
      behindLogin.executed (fun _ => Io.ok) [e] = [.line (utf8 "/users")] ∧
      (behindLogin.step (clientHandlers fun _ => Io.ok) e.toEvent).tried =
        (behindLogin.behindDispatch (clientHandlers fun _ => Io.ok) e.toEvent).tried ++
          [(frameBytes msgUsers [], true)] ∧
      ¬ ∀ future, behindLogin.Final (fun _ => Io.ok) e future := by
  intro e
  have hexecuted : behindLogin.executed (fun _ => Io.ok) [e] = [.line (utf8 "/users")] := by
    decide
  refine ⟨⟨by decide, by decide⟩, hexecuted, by decide, fun hfinal => ?_⟩
  exact absurd (hexecuted.symm.trans (hfinal []).executed) (by simp)

end Session
end TCPClient
