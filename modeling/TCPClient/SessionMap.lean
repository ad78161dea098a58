import TCPClient.Session

namespace TCPClient

open Octets Memory Feed

/-!
# Sessions that differ in the state behind the handlers

The buffer code never looks at the state that the handlers act on.  A map `f` between two kinds
of states that every handler and every event commutes with therefore commutes with whole runs
(`Session.run_map`).
-/

section Loop

variable {σ σ' : Type} (f : σ → σ')

/-- The loop state with another state of the handlers in it. -/
def App.map (app : App σ) : App σ' :=
  ⟨app.rbuf, app.rbufCap, app.running, f app.state, app.stops, app.calls, app.received⟩

@[simp] theorem App.map_rbuf (app : App σ) : (app.map f).rbuf = app.rbuf := rfl

@[simp] theorem App.map_rbufCap (app : App σ) : (app.map f).rbufCap = app.rbufCap := rfl

@[simp] theorem App.map_state (app : App σ) : (app.map f).state = f app.state := rfl

/-- A handler of one event, answering whether the loop goes on. -/
def Commutes (line : σ → σ × Bool) (line' : σ' → σ' × Bool) : Prop :=
  ∀ s, line' (f s) = (f (line s).1, (line s).2)

/-- The same poll for both kinds of states. -/
inductive PollResult.Maps : PollResult σ → PollResult σ' → Prop where
  | interrupted : Maps .interrupted .interrupted
  | failed : Maps .failed .failed
  | timeout {tick : σ → σ × Bool} {tick' : σ' → σ' × Bool} (h : Commutes f tick tick') :
      Maps (.timeout tick) (.timeout tick')
  | socket (socket : Option (Bool × RecvResult)) : Maps (.ready socket none) (.ready socket none)
  | stdin (socket : Option (Bool × RecvResult)) {line : σ → σ × Bool} {line' : σ' → σ' × Bool}
      (h : Commutes f line line') : Maps (.ready socket (some line)) (.ready socket (some line'))

variable {f} {handle : Handler σ} {handle' : Handler σ'}
  (hhandle : ∀ s type payload plen,
    handle' (f s) type payload plen = f (handle s type payload plen))

include hhandle in
/-- The dispatch loop looks at the buffer, and hands the state on to the handlers. -/
theorem map_dispatchLoop (fuel off : Nat) (app : App σ) :
    dispatchLoop handle' fuel off (app.map f) =
      ((dispatchLoop handle fuel off app).1.map f, (dispatchLoop handle fuel off app).2) := by
  induction fuel generalizing off app with
  | zero => rfl
  | succ fuel ih =>
    rw [dispatchLoop, dispatchLoop, App.map_rbuf]
    split_ifs
    · cases protocolParse (app.rbuf.drop off) with
      | more => rfl
      | bad => rfl
      | item consumed frame =>
        dsimp only
        -- the frame is cut from the buffer alike, and the handlers agree on it
        rw [← ih, App.handleFrame, App.handleFrame, App.map]
        dsimp only
        rw [hhandle]
        rfl
    · rfl

include hhandle in
/-- `app_dispatch` does the same. -/
theorem map_appDispatch (app : App σ) :
    appDispatch handle' (app.map f) = (appDispatch handle app).map f := by
  rw [appDispatch, appDispatch, App.map_rbuf, map_dispatchLoop hhandle]
  obtain ⟨app', off⟩ := dispatchLoop handle app.rbuf.length 0 app
  cases off <;> rfl

/-- The buffer grows the same way. -/
theorem map_appEnsureCapacity (app : App σ) (reallocOk : Bool) :
    appEnsureCapacity (app.map f) reallocOk =
      ((appEnsureCapacity app reallocOk).1.map f, (appEnsureCapacity app reallocOk).2) := by
  unfold appEnsureCapacity
  rw [App.map_rbuf, App.map_rbufCap]
  split_ifs <;> rfl

include hhandle in
/-- One `recv`, with the dispatch behind it. -/
theorem map_appHandleSocket (app : App σ) (reallocOk : Bool) (r : RecvResult) :
    appHandleSocket handle' (app.map f) reallocOk r =
      ((appHandleSocket handle app reallocOk r).1.map f,
        (appHandleSocket handle app reallocOk r).2) := by
  rw [appHandleSocket, appHandleSocket, map_appEnsureCapacity]
  obtain ⟨app', go⟩ := appEnsureCapacity app reallocOk
  cases go with
  | false => rfl
  | true =>
    cases r with
    | interrupted => rfl
    | failed => rfl
    | data bs =>
      dsimp only
      rw [App.map_rbuf, App.map_rbufCap]
      split_ifs
      · rfl
      · exact congrArg (·, true) (map_appDispatch hhandle
          { app' with
            rbuf := app'.rbuf ++ bs.take (app'.rbufCap - app'.rbuf.length)
            received := app'.received ++ bs.take (app'.rbufCap - app'.rbuf.length) })

include hhandle in
/-- One round of `app_run`: socket, standard input, tick. -/
theorem map_appRound (app : App σ) {result : PollResult σ} {result' : PollResult σ'}
    (h : PollResult.Maps f result result') :
    appRound handle' (app.map f) result' =
      ((appRound handle app result).1.map f, (appRound handle app result).2) := by
  cases h with
  | interrupted => rfl
  | failed => rfl
  | timeout h =>
    rename_i tick tick'
    rw [appRound, appRound, App.map_state, h app.state]
    obtain ⟨state, go⟩ := tick app.state
    cases go <;> rfl
  | socket socket =>
    cases socket with
    | none => rfl
    | some io =>
      rw [appRound, appRound, pollSocket, pollSocket, map_appHandleSocket hhandle]
      obtain ⟨app', go⟩ := appHandleSocket handle app io.1 io.2
      cases go <;> rfl
  | stdin socket h =>
    rename_i line line'
    have hline (app : App σ) : appHandleStdin (app.map f) line' =
        ((appHandleStdin app line).1.map f, (appHandleStdin app line).2) := by
      rw [appHandleStdin, appHandleStdin, App.map_state, h app.state]
      obtain ⟨state, go⟩ := line app.state
      cases go <;> rfl
    cases socket with
    | none => exact hline app
    | some io =>
      rw [appRound, appRound, pollSocket, pollSocket, map_appHandleSocket hhandle]
      obtain ⟨app', go⟩ := appHandleSocket handle app io.1 io.2
      cases go with
      | false => rfl
      -- `app_handle_stdin` runs in the same round, behind the socket
      | true => exact hline app'

end Loop

/-! ### Sessions -/

section Machine

variable {σ σ' : Type} {f : σ → σ'}

variable (f) in
/-- The handlers commute with the map. -/
structure Handlers.Maps (client : Handlers σ) (client' : Handlers σ') : Prop where
  login : ∀ s type payload, client'.login (f s) type payload = f (client.login s type payload)
  frame : ∀ s type payload plen,
    client'.frame (f s) type payload plen = f (client.frame s type payload plen)
  reset : ∀ s, client'.reset (f s) = f (client.reset s)

variable (f) in
/-- The same event for both kinds of states. -/
inductive SessionEvent.Maps : SessionEvent σ → SessionEvent σ' → Prop where
  | credentials {login : σ → σ × Bool} {login' : σ' → σ' × Bool} (h : Commutes f login login') :
      Maps (.credentials login) (.credentials login')
  | poll (gRunning : Bool) {result : PollResult σ} {result' : PollResult σ'}
      (h : PollResult.Maps f result result') : Maps (.poll gRunning result) (.poll gRunning result')

namespace Session

variable (f) in
def map (s : Session σ) : Session σ' := ⟨s.app.map f, s.phase⟩

variable {client : Handlers σ} {client' : Handlers σ'} (hclient : client.Maps f client')

include hclient

/-- The parse loop of the login, which the first answer ends. -/
theorem map_loginParse (fuel off : Nat) (app : App σ) :
    loginParse client' fuel off (app.map f) =
      ((loginParse client fuel off app).1.map f, (loginParse client fuel off app).2) := by
  induction fuel generalizing off app with
  | zero => rfl
  | succ fuel ih =>
    rw [loginParse, loginParse, App.map_rbuf]
    split_ifs
    · cases protocolParse (app.rbuf.drop off) with
      | more => rfl
      | bad => rfl
      | item consumed frame =>
        have hframe : App.loginFrame client' (app.map f) frame.1 frame.2
            (app.rbuf.drop (off + consumed)) =
            (app.loginFrame client frame.1 frame.2 (app.rbuf.drop (off + consumed))).map f := by
          rw [App.loginFrame, App.loginFrame, App.map, App.map]
          dsimp only
          rw [hclient.login]
        dsimp only
        rw [hframe]
        split_ifs
        · exact ih _ _
        · rfl
    · rfl

/-- What the login makes of one batch. -/
theorem map_loginBatch (app : App σ) :
    loginBatch client' (app.map f) = (loginBatch client app).map f := by
  rw [loginBatch, loginBatch, App.map_rbuf, map_loginParse hclient]
  obtain ⟨app', stop⟩ := loginParse client app.rbuf.length 0 app
  cases stop with
  | none => rfl
  | some stop =>
    obtain ⟨off, outcome⟩ := stop
    cases outcome with
    | waiting => rfl
    | retry => rfl
    | loggedIn =>
      -- the rest of the batch, and then the reset
      have hdispatch := map_appDispatch hclient.frame { app' with rbuf := app'.rbuf.drop off }
      dsimp only [App.map] at hdispatch ⊢
      rw [hdispatch]
      dsimp only [Session.map, App.map]
      rw [hclient.reset]

/-- One `poll` of the login. -/
theorem map_loginPoll (app : App σ) (gRunning : Bool) {result : PollResult σ}
    {result' : PollResult σ'} (h : PollResult.Maps f result result') :
    loginPoll client' (app.map f) gRunning result' =
      (loginPoll client app gRunning result).map f := by
  have hsocket (reallocOk : Bool) (r : RecvResult) :
      loginSocket client' (app.map f) reallocOk r =
        (loginSocket client app reallocOk r).map f := by
    rw [loginSocket, loginSocket, map_appEnsureCapacity]
    obtain ⟨app', go⟩ := appEnsureCapacity app reallocOk
    cases go with
    | false => rfl
    | true =>
      cases r with
      | interrupted => rfl
      | failed => rfl
      | data bs =>
        dsimp only
        rw [App.map_rbuf, App.map_rbufCap]
        split_ifs
        · rfl
        · exact map_loginBatch hclient
            { app' with
              rbuf := app'.rbuf ++ bs.take (app'.rbufCap - app'.rbuf.length)
              received := app'.received ++ bs.take (app'.rbufCap - app'.rbuf.length) }
  -- the login looks at the socket only
  have hready (socket : Option (Bool × RecvResult)) {stdin : Option (σ → σ × Bool)}
      {stdin' : Option (σ' → σ' × Bool)} :
      loginPoll client' (app.map f) gRunning (.ready socket stdin') =
        (loginPoll client app gRunning (.ready socket stdin)).map f := by
    cases gRunning with
    | false => rfl
    | true =>
      cases socket with
      | none => rfl
      | some io => exact hsocket io.1 io.2
  cases h with
  | interrupted => rfl
  | failed => rfl
  | timeout h => cases gRunning <;> rfl
  | socket socket => exact hready socket
  | stdin socket h => exact hready socket

/-- **Step lemma.** -/
theorem map_step (s : Session σ) {e : SessionEvent σ} {e' : SessionEvent σ'}
    (h : SessionEvent.Maps f e e') : (s.map f).step client' e' = (s.step client e).map f := by
  obtain ⟨app, phase⟩ := s
  cases h with
  | credentials h =>
    rename_i login login'
    cases phase with
    | prompting =>
      show step client' ⟨app.map f, .prompting⟩ _ = _
      rw [step, step]
      dsimp only
      rw [App.map_state, h app.state]
      rfl
    | _ => rfl
  | poll gRunning h =>
    cases phase with
    | waiting => exact map_loginPoll hclient app gRunning h
    | running =>
      rename_i result result'
      show step client' ⟨app.map f, .running⟩ _ = _
      by_cases hlive : app.running ∧ gRunning
      · have hlive' : (app.map f).running ∧ gRunning := hlive
        rw [step_live client hlive, step_live client' hlive', map_appRound hclient.frame app h]
        rfl
      · have hover' : ¬ ((app.map f).running ∧ gRunning) := hlive
        rw [step_over client hlive, step_over client' hover']
        rfl
    | _ => rfl

/-- **Run lemma.** Sessions that receive the same events stay related by the map. -/
theorem run_map (s : Session σ) {events : List (SessionEvent σ)}
    {events' : List (SessionEvent σ')} (h : List.Forall₂ (SessionEvent.Maps f) events events') :
    (s.map f).run client' events' = (s.run client events).map f := by
  induction h generalizing s with
  | nil => rfl
  | cons he _ ih =>
    rw [run, List.foldl_cons, map_step hclient s he]
    exact ih _

end Session

/-! ### Invariants of the state -/

/-- The event keeps a property of the state. -/
def SessionEvent.Keeps (P : σ → Prop) : SessionEvent σ → Prop
  | .credentials login => ∀ s, P s → P (login s).1
  | .poll _ (.timeout tick) => ∀ s, P s → P (tick s).1
  | .poll _ (.ready _ (some line)) => ∀ s, P s → P (line s).1
  | _ => True

/-- The handlers keep a property of their state. -/
structure Handlers.Keeps (P : σ → Prop) (client : Handlers σ) : Prop where
  login : ∀ s type payload, P s → P (client.login s type payload)
  frame : ∀ s type payload plen, P s → P (client.frame s type payload plen)
  reset : ∀ s, P s → P (client.reset s)

/-- An event that keeps the property is one of the states that have it. -/
theorem SessionEvent.Keeps.restrict {P : σ → Prop} {e : SessionEvent σ} (h : e.Keeps P) :
    ∃ e' : SessionEvent { s // P s }, SessionEvent.Maps Subtype.val e' e := by
  have hcommutes {line : σ → σ × Bool} (hline : ∀ s, P s → P (line s).1) :
      Commutes Subtype.val
        (fun s : { s // P s } => (⟨(line s).1, hline s s.2⟩, (line s).2)) line := fun s => rfl
  cases e with
  | credentials login => exact ⟨_, .credentials (hcommutes h)⟩
  | poll gRunning result =>
    cases result with
    | interrupted => exact ⟨_, .poll gRunning .interrupted⟩
    | failed => exact ⟨_, .poll gRunning .failed⟩
    | timeout tick => exact ⟨_, .poll gRunning (.timeout (hcommutes h))⟩
    | ready socket stdin =>
      cases stdin with
      | none => exact ⟨_, .poll gRunning (.socket socket)⟩
      | some line => exact ⟨_, .poll gRunning (.stdin socket (hcommutes h))⟩

/-- **Invariant rule**: what the handlers and the events keep holds of the state at the end of
    the run. -/
theorem Session.run_invariant {P : σ → Prop} {client : Handlers σ} (hclient : client.Keeps P)
    {events : List (SessionEvent σ)} (hevents : ∀ e ∈ events, e.Keeps P) {s : Session σ}
    (hs : P s.app.state) : P (s.run client events).app.state := by
  -- the same session over the states with the property
  let client' : Handlers { s // P s } :=
    ⟨fun s type payload => ⟨client.login s type payload, hclient.login _ _ _ s.2⟩,
      fun s type payload plen => ⟨client.frame s type payload plen, hclient.frame _ _ _ _ s.2⟩,
      fun s => ⟨client.reset s, hclient.reset _ s.2⟩⟩
  have hmaps : client'.Maps Subtype.val client :=
    ⟨fun _ _ _ => rfl, fun _ _ _ _ => rfl, fun _ => rfl⟩
  -- and its events, one for each event that keeps the property
  obtain ⟨events', hevents'⟩ :
      ∃ events', List.Forall₂ (SessionEvent.Maps (Subtype.val (p := P))) events' events := by
    induction events with
    | nil => exact ⟨[], .nil⟩
    | cons e events ih =>
      obtain ⟨e', he'⟩ := (hevents e (by simp)).restrict
      obtain ⟨events', hrest⟩ := ih fun e he => hevents e (List.mem_cons_of_mem _ he)
      exact ⟨e' :: events', .cons he' hrest⟩
  have hrun := Session.run_map hmaps
    ⟨⟨s.app.rbuf, s.app.rbufCap, s.app.running, ⟨s.app.state, hs⟩, s.app.stops, s.app.calls,
      s.app.received⟩, s.phase⟩ hevents'
  have hstate := congrArg (fun t : Session σ => t.app.state) hrun
  exact hstate ▸ Subtype.prop _

end Machine
end TCPClient
