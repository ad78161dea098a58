import TCPClient.Handshake

namespace TCPClient

open Octets Reader

/-!
# Input lines behind `poll`

Standard input is a pipe.  `stdio` fetches whatever the pipe has to give, while `app_handle_stdin`
handles one line a round and `poll` sees the pipe only.  A line that was fetched together with the
end of another one therefore waits in the buffer.

* `LoopPlace` — where in the bytes the event loop can stand when it calls `poll`.
* `PollsPipe` — what `poll` can report.
* `no_line_behind_poll_iff` — for which batches no complete line waits in any session.
* `console_batching` — what is handled does not depend on the batches, once it is read.
-/

/-- The event loop is about to call `poll`. -/
def Session.AtLoopPoll {σ : Type} (s : Session σ) : Prop :=
  s.phase = .running ∧ s.app.running = true

/-- What does not end the event loop. -/
def Input.GoesOn : Input → Prop
  | .eof | .login none => False
  | .line text => text ≠ utf8 "/quit"
  | _ => True

/-- Here a login can have ended: the prompts of `login_loop` found names, once or several times
    one behind the other. -/
inductive LoginEnd (stream : Bytes) : Bytes → Prop where
  | first {names : Bytes × Bytes} {rest : Bytes}
      (h : Comes .user stream [.login (some names)] .command rest) : LoginEnd stream rest
  | again {names : Bytes × Bytes} {mid rest : Bytes} (hmid : LoginEnd stream mid)
      (h : Comes .user mid [.login (some names)] .command rest) : LoginEnd stream rest

/-- Here the event loop can call `poll`: behind a login, and then behind calls of
    `app_handle_stdin` that do not end it. -/
inductive LoopPlace (stream : Bytes) : Bytes → Prop where
  | login {rest : Bytes} (h : LoginEnd stream rest) : LoopPlace stream rest
  | input {input : Input} {mid rest : Bytes} (hmid : LoopPlace stream mid)
      (h : Comes .command mid [input] .command rest) (hgo : input.GoesOn) : LoopPlace stream rest

/-! ### Where the event loop polls -/

section Places

variable {env : Surroundings} {stream : Bytes}

/-- Where a session can stand in the bytes. -/
def Phase.Place (stream : Bytes) : Phase → Bytes → Prop
  | .prompting => fun rest => rest = stream ∨ LoginEnd stream rest
  | .waiting => LoginEnd stream
  | .running => LoopPlace stream
  | .stopped => fun _ => True

/-- For what the first line of a reading is read. -/
def Reading.asked : Reading → Asked
  | .names => .user
  | .input => .command

/-- A reading finds the next input. -/
theorem Reading.comes (reading : Reading) (s : Stdin) :
    Comes reading.asked s.stream [(reading.read.run s).1] .command
      (reading.read.run s).2.stream := by
  cases reading with
  | names => exact comes_readNames s
  | input => exact comes_readInput s

/-- Only what goes on answers that the connection is still used. -/
theorem goesOn_of_act {io : LineIo} {state : Option World × (Nat → Io)} {input : Input}
    (h : ((clientLines io).act state input).2 = true) : input.GoesOn := by
  cases input with
  | eof => exact absurd h (by simp [LineHandlers.act])
  | tooLong => trivial
  | login names =>
    cases names with
    | none => exact absurd h (by simp [LineHandlers.act])
    | some names => trivial
  | line text =>
    rintro rfl
    obtain ⟨w, ios⟩ := state
    cases w with
    | none => exact absurd h (by simp [LineHandlers.act, clientLines])
    | some w =>
      have hquit : decide (Status.ok = .ok ∧ ¬ true = true) = true := h
      exact absurd hquit (by decide)

/-- Frames and the reset do not touch standard input. -/
theorem keeps_stdin (env : Surroundings) (stdin : Stdin) :
    env.client.Keeps fun k => k.stdin = stdin :=
  ⟨fun _ _ _ h => h, fun _ _ _ _ h => h, fun _ h => h⟩

/-- What one event does to standard input, if it is not a reading. -/
theorem stdin_step (env : Surroundings) (s : Session Console) {e : SessionEvent Console}
    (he : e.Keeps fun k => k.stdin = s.app.state.stdin) :
    (s.step env.client e).app.state.stdin = s.app.state.stdin :=
  show (s.run env.client [e]).app.state.stdin = _ from
    Session.run_invariant (keeps_stdin env _) (by simpa using he) rfl

/-- A `poll` of which standard input is not looked at. -/
theorem keeps_poll (stdin : Stdin) (gRunning : Bool) {result : ConsolePoll}
    (h : ∀ socket io, result ≠ .ready socket (some io)) :
    (ConsoleEvent.poll gRunning result).toEvent.Keeps fun k => k.stdin = stdin := by
  cases result with
  | interrupted => trivial
  | failed => trivial
  | timeout io => exact fun k hk => hk
  | ready socket line =>
    cases line with
    | none => trivial
    | some io => exact absurd rfl (h socket io)

/-- The login looks at the socket only. -/
theorem stdin_loginPoll (app : App Console) (gRunning : Bool) (result : ConsolePoll) :
    (loginPoll env.client app gRunning result.toPoll).app.state.stdin = app.state.stdin := by
  have hsocket (result : ConsolePoll) (h : ∀ socket io, result ≠ .ready socket (some io)) :
      (loginPoll env.client app gRunning result.toPoll).app.state.stdin = app.state.stdin :=
    stdin_step env ⟨app, .waiting⟩ (keeps_poll _ gRunning h)
  cases result with
  | interrupted => exact hsocket _ (by simp)
  | failed => exact hsocket _ (by simp)
  | timeout io => exact hsocket _ (by simp)
  | ready socket line =>
    have hnone := hsocket (.ready socket none) (by simp)
    cases gRunning <;> cases socket <;> exact hnone

/-- One round of the event loop. -/
theorem LoopPlace.round (env : Surroundings) {app : App Console}
    (h : LoopPlace stream app.state.stdin.stream) {gRunning : Bool}
    (hlive : app.running ∧ gRunning) (result : ConsolePoll) :
    (appRound env.client.frame app result.toPoll).2 = true →
      LoopPlace stream (appRound env.client.frame app result.toPoll).1.state.stdin.stream := by
  have hsocket (result : ConsolePoll) (h : ∀ socket io, result ≠ .ready socket (some io)) :
      (appRound env.client.frame app result.toPoll).1.state.stdin = app.state.stdin := by
    have hstep := stdin_step env ⟨app, .running⟩ (keeps_poll app.state.stdin gRunning h)
    have hround : Session.step env.client ⟨app, .running⟩
        (ConsoleEvent.poll gRunning result).toEvent = _ :=
      Session.step_live env.client hlive result.toPoll
    rwa [hround] at hstep
  have hkept (result : ConsolePoll) (hnone : ∀ socket io, result ≠ .ready socket (some io)) :
      LoopPlace stream (appRound env.client.frame app result.toPoll).1.state.stdin.stream := by
    rwa [hsocket result hnone]
  intro hgo
  cases result with
  | interrupted => exact hkept _ (by simp)
  | failed => exact hkept _ (by simp)
  | timeout io => exact hkept _ (by simp)
  | ready socket line =>
    cases line with
    | none => exact hkept _ (by simp)
    | some io =>
      -- the socket comes first, and leaves standard input alone
      have hstdin := hsocket (.ready socket none) (by simp)
      change (appRound env.client.frame app (.ready socket none)).1.state.stdin = _ at hstdin
      change (appRound env.client.frame app (.ready socket (some
        (Keyboard.take (clientLines io) .input)))).2 = true at hgo
      show LoopPlace stream (appRound env.client.frame app (.ready socket (some
        (Keyboard.take (clientLines io) .input)))).1.state.stdin.stream
      rw [appRound] at hstdin hgo ⊢
      generalize pollSocket env.client.frame app socket = res at hstdin hgo ⊢
      obtain ⟨app', go⟩ := res
      cases go with
      | false => exact absurd hgo (by simp)
      | true =>
        replace hstdin : app'.state.stdin = app.state.stdin := hstdin
        rw [← hstdin] at h
        dsimp only [pollStdin] at hgo ⊢
        rw [appHandleStdin, Keyboard.take_eq] at hgo ⊢
        have hcomes := Reading.comes .input app'.state.stdin
        have hact : ((clientLines io).act app'.state.state
            (Reading.input.read.run app'.state.stdin).1).2 = true → Input.GoesOn _ := goesOn_of_act
        generalize (clientLines io).act app'.state.state
          (Reading.input.read.run app'.state.stdin).1 = acted at hgo hact ⊢
        obtain ⟨state, goes⟩ := acted
        cases goes with
        | false => exact absurd hgo (by simp)
        | true => exact h.input hcomes (hact rfl)

/-- **Step lemma.** -/
theorem Phase.Place.step {s : Session Console} (h : s.phase.Place stream s.app.state.stdin.stream)
    (e : ConsoleEvent) :
    (s.step env.client e.toEvent).phase.Place stream
      (s.step env.client e.toEvent).app.state.stdin.stream := by
  obtain ⟨app, phase⟩ := s
  cases e with
  | names io =>
    cases phase with
    | prompting =>
      show Phase.Place stream
        (if (app.state.take (clientLines io) .names).2 then .waiting else .stopped)
        (app.state.take (clientLines io) .names).1.stdin.stream
      rw [Keyboard.take_eq]
      dsimp only
      split_ifs with hok
      · have hgo := goesOn_of_act hok
        have hcomes := Reading.comes .names app.state.stdin
        change Comes .user _ [.login (readNames.run app.state.stdin).1] _ _ at hcomes
        change (Input.login (readNames.run app.state.stdin).1).GoesOn at hgo
        cases hnames : (readNames.run app.state.stdin).1 with
        | none =>
          rw [hnames] at hgo
          exact hgo.elim
        | some names =>
          rw [hnames] at hcomes
          rcases h with hstart | hlogin
          · exact .first (by rwa [hstart] at hcomes)
          · exact .again hlogin hcomes
      · trivial
    | waiting => exact h
    | running => exact h
    | stopped => trivial
  | poll gRunning result =>
    cases phase with
    | prompting => exact h
    | stopped => trivial
    | waiting =>
      -- wherever the login leads to, the names have been read
      have hstdin : ((Session.step env.client ⟨app, .waiting⟩
          (ConsoleEvent.poll gRunning result).toEvent).app.state.stdin) = app.state.stdin :=
        stdin_loginPoll app gRunning result
      rw [hstdin]
      replace h : LoginEnd stream app.state.stdin.stream := h
      generalize (Session.step env.client ⟨app, .waiting⟩
        (ConsoleEvent.poll gRunning result).toEvent).phase = phase
      cases phase with
      | prompting => exact Or.inr h
      | waiting => exact h
      | running => exact .login h
      | stopped => trivial
    | running =>
      by_cases hlive : app.running ∧ gRunning
      swap
      · have hstep : Session.step env.client ⟨app, .running⟩
            (ConsoleEvent.poll gRunning result).toEvent = ⟨app, .stopped⟩ :=
          Session.step_over env.client hlive result.toPoll
        rw [hstep]
        trivial
      have hstep : Session.step env.client ⟨app, .running⟩
          (ConsoleEvent.poll gRunning result).toEvent =
            ⟨(appRound env.client.frame app result.toPoll).1,
              if (appRound env.client.frame app result.toPoll).2 then .running else .stopped⟩ :=
        Session.step_live env.client hlive result.toPoll
      rw [hstep]
      have hround := LoopPlace.round env (show LoopPlace stream _ from h) hlive result
      dsimp only
      split_ifs with hgo
      · exact hround hgo
      · trivial

/-- **Run lemma.** Wherever a session stands, it stands in one of these places. -/
theorem place_session (env : Surroundings) (events : List ConsoleEvent) :
    (env.session events).phase.Place env.stdin.stream
      (env.session events).app.state.stdin.stream := by
  have hrun (s : Session Console)
      (h : s.phase.Place env.stdin.stream s.app.state.stdin.stream) :
      (s.run env.client (events.map ConsoleEvent.toEvent)).phase.Place env.stdin.stream
        (s.run env.client (events.map ConsoleEvent.toEvent)).app.state.stdin.stream := by
    induction events generalizing s with
    | nil => exact h
    | cons e events ih => exact ih (s.step env.client e.toEvent) (h.step e)
  exact hrun env.start (Or.inl rfl)

/-! ### Every place is polled at -/

/-- The session stands at a place with an empty buffer, and everything has gone well. -/
structure Session.StandsAt (phase : Phase) (rest : Bytes) (s : Session Console) : Prop where
  phase : s.phase = phase
  rbuf : s.app.rbuf = []
  rbufCap : s.app.rbufCap = appRbufInit
  running : s.app.running = true
  world : ∃ w, s.app.state.state.1 = some w
  rest : s.app.state.stdin.stream = rest

/-- Such a session, written out. -/
theorem Session.StandsAt.eq {phase : Phase} {rest : Bytes} {s : Session Console}
    (h : s.StandsAt phase rest) : ∃ stdin inputs w ios stops calls received,
      s = ⟨⟨[], appRbufInit, true, ⟨stdin, inputs, (some w, ios)⟩, stops, calls, received⟩, phase⟩ ∧
        stdin.stream = rest := by
  obtain ⟨⟨rbuf, rbufCap, running, ⟨stdin, inputs, ⟨state, ios⟩⟩, stops, calls, received⟩, phase⟩ :=
    s
  obtain ⟨rfl, rfl, rfl, rfl, ⟨w, rfl⟩, hrest⟩ := h
  exact ⟨stdin, inputs, w, ios, stops, calls, received, rfl, hrest⟩

/-- What goes on, goes on when everything succeeds. -/
theorem act_of_goesOn {input : Input} (hfits : input.Fits) (hgo : input.GoesOn) (w : World)
    (ios : Nat → Io) :
    ∃ w', (clientLines lineIo).act (some w, ios) input = ((some w', ios), true) := by
  cases input with
  | eof => exact hgo.elim
  | tooLong => exact ⟨w, rfl⟩
  | login names =>
    cases names with
    | none => exact hgo.elim
    | some names =>
      refine ⟨(w.commandsLogin true (some names)).1, ?_⟩
      have hok : (w.commandsLogin true (some names)).2 = .ok := by
        rw [World.commandsLogin, protocolBuildAuth_eq hfits]
        rfl
      show ((some (w.commandsLogin true (some names)).1, ios),
        decide ((w.commandsLogin true (some names)).2 = .ok)) = _
      rw [hok]
      rfl
  | line text =>
    refine ⟨(w.commandsHandleLine lineIo text (w, .ok)).world, ?_⟩
    have hlen : text.length ≤ 65534 := by
      simp only [Input.Fits, appInputMax, maxMessageLen] at hfits
      omega
    have hok : (w.commandsHandleLine lineIo text (w, .ok)).status = .ok := by
      by_cases hlogin : text = utf8 "/login"
      · subst hlogin
        rfl
      · rcases handleLine_called w lineIo (w, .ok) hlen hlogin with
          ⟨-, hok⟩ | ⟨type, payload, -, -, hsends⟩
        · exact hok
        · -- the frame goes out
          have hup : lineIo.answers type = true := by
            unfold LineIo.answers
            split_ifs <;> rfl
          cases hstatus : (w.commandsHandleLine lineIo text (w, .ok)).status with
          | ok => rfl
          | lost => exact absurd (hsends.2 hstatus) (by simp [hup])
    have hquit := w.quit_commandsHandleLine lineIo (w, .ok) hgo
    show ((some (w.commandsHandleLine lineIo text (w, .ok)).world, ios),
      decide ((w.commandsHandleLine lineIo text (w, .ok)).status = .ok ∧
        ¬ (w.commandsHandleLine lineIo text (w, .ok)).quit = true)) = _
    rw [hok, hquit]
    rfl

variable {s : Session Console} {mid rest : Bytes}

/-- The names that are found next are entered. -/
theorem Session.StandsAt.names (h : s.StandsAt .prompting mid) (env : Surroundings)
    {names : Bytes × Bytes}
    (hcomes : Comes .user mid [.login (some names)] .command rest) :
    (s.step env.client (ConsoleEvent.names lineIo).toEvent).StandsAt .waiting rest := by
  obtain ⟨stdin, inputs, w, ios, stops, calls, received, rfl, rfl⟩ := h.eq
  obtain ⟨hinput, hstream⟩ := (Reading.comes .names stdin).unique hcomes
  have hfits := Reading.fits .names stdin
  have htake := Keyboard.take_eq (clientLines lineIo) .names ⟨stdin, inputs, (some w, ios)⟩
  rw [hinput] at hfits
  obtain ⟨w', hact⟩ := act_of_goesOn hfits trivial w ios
  dsimp only at htake
  rw [hinput, hact] at htake
  have hstep : Session.step env.client
      ⟨⟨[], appRbufInit, true, ⟨stdin, inputs, (some w, ios)⟩, stops, calls, received⟩, .prompting⟩
      (ConsoleEvent.names lineIo).toEvent =
      ⟨⟨[], appRbufInit, true,
        (Keyboard.take (clientLines lineIo) .names ⟨stdin, inputs, (some w, ios)⟩).1, stops, calls,
        received⟩, if (Keyboard.take (clientLines lineIo) .names
          ⟨stdin, inputs, (some w, ios)⟩).2 then .waiting else .stopped⟩ := rfl
  rw [hstep, htake]
  exact ⟨rfl, rfl, rfl, rfl, ⟨w', rfl⟩, hstream⟩

/-- The server refuses them. -/
theorem Session.StandsAt.refused (h : s.StandsAt .waiting rest) (env : Surroundings) :
    (s.step env.client (ConsoleEvent.poll true
      (.ready (some (true, .data refusalFrame.encode)) none)).toEvent).StandsAt
      .prompting rest := by
  obtain ⟨stdin, inputs, w, ios, stops, calls, received, rfl, hrest⟩ := h.eq
  exact ⟨rfl, rfl, rfl, rfl, ⟨_, rfl⟩, hrest⟩

/-- The server takes them. -/
theorem Session.StandsAt.welcomed (h : s.StandsAt .waiting rest) (env : Surroundings) :
    (s.step env.client (ConsoleEvent.poll true
      (.ready (some (true, .data welcomeFrame.encode)) none)).toEvent).StandsAt
      .running rest := by
  obtain ⟨stdin, inputs, w, ios, stops, calls, received, rfl, hrest⟩ := h.eq
  exact ⟨rfl, rfl, rfl, rfl, ⟨_, rfl⟩, hrest⟩

/-- The line that is found next is handled. -/
theorem Session.StandsAt.input (h : s.StandsAt .running mid) (env : Surroundings)
    {input : Input}
    (hcomes : Comes .command mid [input] .command rest) (hgo : input.GoesOn) :
    (s.step env.client (ConsoleEvent.poll true (.ready none (some lineIo))).toEvent).StandsAt
      .running rest := by
  obtain ⟨stdin, inputs, w, ios, stops, calls, received, rfl, rfl⟩ := h.eq
  obtain ⟨hinput, hstream⟩ := (Reading.comes .input stdin).unique hcomes
  have hfits := Reading.fits .input stdin
  have htake := Keyboard.take_eq (clientLines lineIo) .input ⟨stdin, inputs, (some w, ios)⟩
  rw [hinput] at hfits
  obtain ⟨w', hact⟩ := act_of_goesOn hfits hgo w ios
  dsimp only at htake
  rw [hinput, hact] at htake
  have hround : appRound env.client.frame
      ⟨[], appRbufInit, true, ⟨stdin, inputs, (some w, ios)⟩, stops, calls, received⟩
      (.ready none (some (Keyboard.take (clientLines lineIo) .input))) =
      (⟨[], appRbufInit, true, ⟨(Reading.input.read.run stdin).2, inputs ++ [input],
        (some w', ios)⟩, stops, calls, received⟩, true) := by
    rw [appRound, pollSocket]
    dsimp only [pollStdin]
    rw [appHandleStdin, htake]
  have hstep : Session.step env.client
      ⟨⟨[], appRbufInit, true, ⟨stdin, inputs, (some w, ios)⟩, stops, calls, received⟩, .running⟩
      (ConsoleEvent.poll true (.ready none (some lineIo))).toEvent = _ :=
    Session.step_live env.client ⟨rfl, rfl⟩
      (.ready none (some (Keyboard.take (clientLines lineIo) .input)))
  rw [hstep, hround]
  exact ⟨rfl, rfl, rfl, rfl, ⟨w', rfl⟩, hstream⟩

end Places

/-- A client with this standard input, for which everything succeeds. -/
def easySurroundings (stdin : Stdin) : Surroundings :=
  ⟨stdin, fun _ => none, fun _ => Io.ok, fun _ => Io.ok⟩

theorem session_append (env : Surroundings) (events : List ConsoleEvent) (e : ConsoleEvent) :
    env.session (events ++ [e]) = (env.session events).step env.client e.toEvent := by
  rw [Surroundings.session, List.map_append, Session.run, List.foldl_append]
  rfl

/-- `poll` sees the pipe only: it reports standard input to the event loop while something is still
    to come from there, whatever the buffer of stdio holds. -/
def Surroundings.PollsPipe (env : Surroundings) (events : List ConsoleEvent) : Prop :=
  ∀ before gRunning socket io after,
    events = before ++ .poll gRunning (.ready socket (some io)) :: after →
      (env.session before).AtLoopPoll → (env.session before).app.state.stdin.pipe ≠ []

theorem Surroundings.pollsPipe_nil (env : Surroundings) : env.PollsPipe [] :=
  fun before gRunning socket io after h => absurd h (by simp)

/-- One event more. -/
theorem Surroundings.PollsPipe.concat {env : Surroundings} {events : List ConsoleEvent}
    (h : env.PollsPipe events) {e : ConsoleEvent}
    (he : ∀ gRunning socket io, e = .poll gRunning (.ready socket (some io)) →
      (env.session events).app.state.stdin.pipe ≠ []) : env.PollsPipe (events ++ [e]) := by
  intro before gRunning socket io after hsplit hpolls
  rcases List.eq_nil_or_concat after with rfl | ⟨after, last, rfl⟩
  · obtain ⟨rfl, hlast⟩ := List.append_inj' hsplit rfl
    exact he gRunning socket io (List.singleton_inj.mp hlast)
  · rw [List.concat_eq_append, ← List.cons_append, ← List.append_assoc] at hsplit
    exact h before gRunning socket io after (List.append_inj' hsplit rfl).1 hpolls

/-- Every end of a login is waited at. -/
theorem LoginEnd.exists_session {stdin : Stdin} {rest : Bytes}
    (h : LoginEnd stdin.stream rest) :
    ∃ events, (easySurroundings stdin).PollsPipe events ∧
      ((easySurroundings stdin).session events).StandsAt .waiting rest := by
  induction h with
  | first hcomes =>
    have hstart : (easySurroundings stdin).start.StandsAt .prompting stdin.stream :=
      ⟨rfl, rfl, rfl, rfl, ⟨_, rfl⟩, rfl⟩
    refine ⟨[.names lineIo], ?_, hstart.names (easySurroundings stdin) hcomes⟩
    exact (Surroundings.pollsPipe_nil _).concat (by simp)
  | again hmid hcomes ih =>
    -- the server refuses the names before, and the next ones are entered
    obtain ⟨events, hpolls, hwaits⟩ := ih
    refine ⟨events ++ [.poll true (.ready (some (true, .data refusalFrame.encode)) none)] ++
      [.names lineIo], (hpolls.concat (by simp)).concat (by simp), ?_⟩
    rw [session_append, session_append]
    exact (hwaits.refused _).names _ hcomes

/-- Without a newline there is nothing left but the end of the input. -/
theorem comes_unfinished {stream : Bytes} (h : 10 ∉ stream) :
    Comes .command stream [if stream = [] then .eof else .tooLong] .command [] := by
  refine ⟨1, ?_⟩
  rw [walk_succ]
  by_cases hnil : stream = []
  · rw [hnil]
    exact ⟨rfl, rfl, rfl⟩
  · rw [roundOf_last hnil h, if_neg hnil]
    exact ⟨rfl, rfl, rfl⟩

/-- Every place is polled at, but the end of the stream, as long as no line waits at those before
    it: at each of them `poll` finds something in the pipe. -/
theorem LoopPlace.exists_session {stdin : Stdin}
    (hnone : ∀ events, (easySurroundings stdin).PollsPipe events →
      ((easySurroundings stdin).session events).AtLoopPoll →
        10 ∉ ((easySurroundings stdin).session events).app.state.stdin.buffer)
    {rest : Bytes} (h : LoopPlace stdin.stream rest) :
    rest = [] ∨ ∃ events, (easySurroundings stdin).PollsPipe events ∧
      ((easySurroundings stdin).session events).StandsAt .running rest := by
  induction h with
  | login hlogin =>
    obtain ⟨events, hpolls, hwaits⟩ := hlogin.exists_session
    refine Or.inr ⟨events ++ [.poll true (.ready (some (true, .data welcomeFrame.encode)) none)],
      hpolls.concat (by simp), ?_⟩
    rw [session_append]
    exact hwaits.welcomed _
  | input hmid hcomes hgo ih =>
    rcases ih with rfl | ⟨events, hpolls, hruns⟩
    · -- behind the end there is no input that goes on
      obtain ⟨rfl, -⟩ := hcomes.unique (comes_unfinished (by simp))
      exact hgo.elim
    · by_cases hpipe : ((easySurroundings stdin).session events).app.state.stdin.pipe = []
      · -- what is left has been fetched, and has no newline
        have hfetched := hnone events hpolls ⟨hruns.phase, hruns.running⟩
        have hrest := hruns.rest
        rw [stream, hpipe, List.flatMap_nil, List.append_nil] at hrest
        rw [hrest] at hfetched
        exact Or.inl (hcomes.unique (comes_unfinished hfetched)).2
      · refine Or.inr ⟨events ++ [.poll true (.ready none (some lineIo))],
          hpolls.concat fun _ _ _ _ => hpipe, ?_⟩
        rw [session_append]
        exact hruns.input _ hcomes hgo

/-! ### What is in the buffer -/

/-- What a batch has brought behind the place in front of `rest`. -/
def fetchedBehind (batches : List (Batch UInt8)) (rest : Bytes) : Bytes :=
  behindBatch batches ((batches.flatMap Subtype.val).length - rest.length)

/-- **The buffer** of stdio is what the last batch has brought behind the last reading. -/
theorem buffer_session {env : Surroundings} {batches : List (Batch UInt8)}
    (hstdin : env.stdin = ofBatches batches) (events : List ConsoleEvent) :
    (env.session events).app.state.stdin.buffer =
      fetchedBehind batches (env.session events).app.state.stdin.stream := by
  have hadvanced : ∃ n, (env.session events).app.state.stdin = env.stdin.advance n := by
    refine Session.run_invariant (P := fun k : Console => ∃ n, k.stdin = env.stdin.advance n)
      ⟨fun _ _ _ h => h, fun _ _ _ _ h => h, fun _ h => h⟩ (fun e he => ?_) ⟨0, rfl⟩
    obtain ⟨e, -, rfl⟩ := List.mem_map.mp he
    -- a reading only takes bytes
    have htake (io : LineIo) (reading : Reading) (k : Console)
        (h : ∃ n, k.stdin = env.stdin.advance n) :
        ∃ n, (k.take (clientLines io) reading).1.stdin = env.stdin.advance n := by
      obtain ⟨n, hn⟩ := h
      obtain ⟨m, hm⟩ := reading.steady.advances k.stdin
      exact ⟨n + m, by rw [Keyboard.take_eq, hm, hn, advance_add]⟩
    cases e with
    | names io => exact htake io .names
    | poll gRunning result =>
      cases result with
      | interrupted => trivial
      | failed => trivial
      | timeout io => exact fun k h => h
      | ready socket line =>
        cases line with
        | none => trivial
        | some io => exact htake io .input
  obtain ⟨n, hn⟩ := hadvanced
  rw [hn, hstdin]
  calc ((ofBatches batches).advance n).buffer
      = ((ofBatches batches).advance ((ofBatches batches).stream.length -
          ((ofBatches batches).advance n).stream.length)).buffer := by rw [← advance_eq]
    _ = fetchedBehind batches ((ofBatches batches).advance n).stream := buffer_advance _ _

/-- **No input line waits behind `poll`**, in any session over these batches in which `poll` reports
    what it can, exactly when no place at which the event loop can poll has a newline behind it in
    its batch. -/
theorem no_line_behind_poll_iff (batches : List (Batch UInt8)) :
    (∀ (env : Surroundings) (events : List ConsoleEvent), env.stdin = ofBatches batches →
        env.PollsPipe events → (env.session events).AtLoopPoll →
          10 ∉ (env.session events).app.state.stdin.buffer) ↔
      ∀ rest, LoopPlace (batches.flatMap Subtype.val) rest → 10 ∉ fetchedBehind batches rest := by
  constructor
  · intro h rest hplace
    have hnone := fun events => h (easySurroundings (ofBatches batches)) events rfl
    rcases LoopPlace.exists_session hnone hplace with rfl | ⟨events, hpolls, hruns⟩
    · rw [fetchedBehind, List.length_nil, Nat.sub_zero, behindBatch_length]
      simp
    · have hbuffer := hnone events hpolls ⟨hruns.phase, hruns.running⟩
      rwa [buffer_session rfl, hruns.rest] at hbuffer
  · rintro h env events hstdin - ⟨hphase, -⟩
    have hplace := place_session env events
    rw [hphase, hstdin] at hplace
    rw [buffer_session hstdin]
    exact h _ hplace

/-- The names in one batch, two lines in the next one. -/
def namesThenTwoLines : Surroundings :=
  easySurroundings (ofBatches [⟨utf8 "bob\npw\n", by decide⟩, ⟨utf8 "a\nb\n", by decide⟩])

/-- The names are entered and taken, and standard input is reported once. -/
def loginThenLine : List ConsoleEvent :=
  [.names lineIo, .poll true (.ready (some (true, .data welcomeFrame.encode)) none),
    .poll true (.ready none (some lineIo))]

/-- Two lines that come in one batch: while the client polls, and the pipe is empty, the second one
    waits. -/
theorem second_line_waits :
    namesThenTwoLines.PollsPipe loginThenLine ∧
      (namesThenTwoLines.session loginThenLine).AtLoopPoll ∧
      (namesThenTwoLines.session loginThenLine).app.state.stdin.buffer = utf8 "b\n" ∧
      (namesThenTwoLines.session loginThenLine).app.state.stdin.pipe = [] ∧
      (namesThenTwoLines.session loginThenLine).app.state.inputs =
        [.login (some (utf8 "bob", utf8 "pw")), .line (utf8 "a")] := by
  refine ⟨?_, ⟨?_, ?_⟩, ?_, ?_, ?_⟩
  · have hlogin : namesThenTwoLines.PollsPipe ([] ++ [.names lineIo] ++
        [.poll true (.ready (some (true, .data welcomeFrame.encode)) none)]) :=
      ((Surroundings.pollsPipe_nil _).concat (by simp)).concat (by simp)
    -- the second batch has not been fetched by then
    refine hlogin.concat fun _ _ _ _ hpipe => ?_
    have hone : (namesThenTwoLines.session ([] ++ [.names lineIo] ++
        [.poll true (.ready (some (true, .data welcomeFrame.encode)) none)])).app.state.stdin.pipe =
        [⟨utf8 "a\nb\n", by decide⟩] := rfl
    rw [hone] at hpipe
    exact absurd hpipe (by simp)
  · decide
  · decide
  · decide
  · rfl
  · decide

/-! ### Batching -/

/-- **Batching.** Sessions that receive the same events read the same, whatever batches the bytes
    came in: their inputs agree, and so does all that they do with them. -/
theorem console_batching (env : Surroundings) {stdin stdin' : Stdin}
    (hstream : stdin.stream = stdin'.stream) (events : List ConsoleEvent) :
    let s := { env with stdin := stdin }.session events
    let s' := { env with stdin := stdin' }.session events
    s.phase = s'.phase ∧ s.app.running = s'.app.running ∧
      s.app.state.inputs = s'.app.state.inputs ∧ s.app.state.state = s'.app.state.state := by
  -- both are the session in which all bytes have been fetched already
  let fetch : Console → Console := fun k => { k with stdin := ofStream k.stdin.stream }
  have htake (io : LineIo) (reading : Reading) : Commutes fetch
      (Keyboard.take (clientLines io) reading) (Keyboard.take (clientLines io) reading) := by
    intro k
    rw [Keyboard.take_eq, Keyboard.take_eq]
    show (_, _) = (fetch _, _)
    dsimp only [fetch]
    rw [reading.steady.run_ofStream k.stdin]
  have hclient : env.client.Maps fetch env.client :=
    ⟨fun _ _ _ => rfl, fun _ _ _ _ => rfl, fun _ => rfl⟩
  have hevents : List.Forall₂ (SessionEvent.Maps fetch) (events.map ConsoleEvent.toEvent)
      (events.map ConsoleEvent.toEvent) := by
    rw [List.forall₂_same]
    intro e he
    obtain ⟨e, -, rfl⟩ := List.mem_map.mp he
    cases e with
    | names io => exact .credentials (htake io .names)
    | poll gRunning result =>
      cases result with
      | interrupted => exact .poll gRunning .interrupted
      | failed => exact .poll gRunning .failed
      | timeout io => exact .poll gRunning (.timeout fun _ => rfl)
      | ready socket line =>
        cases line with
        | none => exact .poll gRunning (.socket socket)
        | some io => exact .poll gRunning (.stdin socket (htake io .input))
  have hfetched (stdin : Stdin) : { env with stdin := ofStream stdin.stream }.session events =
      ({ env with stdin := stdin }.session events).map fetch := by
    have hrun := Session.run_map hclient (Surroundings.start { env with stdin := stdin }) hevents
    exact hrun
  have hboth := (hfetched stdin).symm.trans ((congrArg (fun xs : Bytes =>
    { env with stdin := ofStream xs }.session events) hstream).trans (hfetched stdin'))
  intro s s'
  exact ⟨congrArg (fun t => t.phase) hboth, congrArg (fun t => t.app.running) hboth,
    congrArg (fun t => t.app.state.inputs) hboth, congrArg (fun t => t.app.state.state) hboth⟩

end TCPClient
