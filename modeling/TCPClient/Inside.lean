import TCPClient.Wire

namespace TCPClient

open Octets Memory Feed

/-!
# Sessions that stay inside their payloads

The handlers of a session see the frames of the received stream and no others, however the stream
is cut (`Session.run_frames`).  So what a handler keeps on good frames holds of every session whose
server sends good frames.  `console_inside` draws the conclusion for the reads behind a payload:
there are none if every frame is confined.
-/

/-- All that stands in the stream as a frame, behind whole frames. -/
def AllFrames (Good : Frame → Prop) (stream : Bytes) : Prop :=
  ∀ (front : List Frame) (f : Frame) (rest : Bytes),
    stream = front.flatMap Frame.encode ++ (f.encode ++ rest) → Good f

/-- What holds of all the frames of a stream holds of those of any beginning of it. -/
theorem AllFrames.of_prefix {Good : Frame → Prop} {stream stream' : Bytes}
    (h : AllFrames Good stream') (hstream : stream <+: stream') : AllFrames Good stream := by
  obtain ⟨more, rfl⟩ := hstream
  rintro front f rest rfl
  exact h front f (rest ++ more) (by simp)

/-- These are the frames that the parser delivers. -/
theorem allFrames_of_whole {Q : UInt8 × Bytes → Prop} {stream : Bytes}
    (h : ∀ f ∈ (whole protocolParse stream).items, Q f) :
    AllFrames (fun f => Q f.parsed) stream := by
  rintro front f rest rfl
  obtain ⟨hwf, hrest, hleft⟩ := (codec_protocolParse.whole_iff protocolParse_stable).mp
    (rfl : whole protocolParse rest = whole protocolParse rest)
  have hfits : ∀ b ∈ (front ++ [f]).map Frame.parsed ++ (whole protocolParse rest).items,
      b.2.length < 2 ^ 16 := by
    intro b hb
    rcases List.mem_append.mp hb with hb | hb
    · obtain ⟨g, -, rfl⟩ := List.mem_map.mp hb
      exact g.fits
    · exact hwf b hb
  have hstream : front.flatMap Frame.encode ++ (f.encode ++ rest) =
      ((front ++ [f]).map Frame.parsed ++ (whole protocolParse rest).items).flatMap
        (fun b => frameBytes b.1 b.2) ++ (whole protocolParse rest).left := by
    have hencode : Frame.encode = fun f => frameBytes f.parsed.1 f.parsed.2 := rfl
    rw [List.flatMap_append, List.append_assoc, ← hrest, List.flatMap_map, List.flatMap_append,
      hencode]
    simp
  refine h f.parsed ?_
  rw [hstream, codec_protocolParse.whole_flatMap protocolParse_stable hfits hleft]
  simp

section Machine

variable {σ : Type} {client : Handlers σ} {P : Phase → σ → Prop} {Q : σ → Prop}
  {Good : Frame → Prop}

/-- Where a session stands behind a batch of the login. -/
def loginPhase : World.LoginOutcome → Phase
  | .waiting => .waiting
  | .retry => .prompting
  | .loggedIn => .running

/-- The handlers keep the property of each phase on good frames, whatever stands behind them, and
    lead from one phase to the next. -/
structure Handlers.KeepsOn (Good : Frame → Prop) (P : Phase → σ → Prop) (client : Handlers σ) :
    Prop where
  login : ∀ s (f : Frame) rest, Good f → P .waiting s →
    P (loginPhase (loginOutcome f.type)) (client.login s f.type (span f.payload rest))
  frame : ∀ s (f : Frame) rest, Good f → P .running s →
    P .running (client.frame s f.type (span f.payload rest) f.payload.length)
  reset : ∀ s, P .running s → P .running (client.reset s)
  stop : ∀ phase s, phase ≠ .running → P phase s → P .stopped s

/-- So do the events. -/
def SessionEvent.KeepsIn (P : Phase → σ → Prop) : SessionEvent σ → Prop
  | .credentials login =>
    ∀ s, P .prompting s → P (if (login s).2 then .waiting else .stopped) (login s).1
  | .poll _ (.timeout tick) => ∀ s, P .running s → P .running (tick s).1
  | .poll _ (.ready _ (some line)) => ∀ s, P .running s → P .running (line s).1
  | _ => True

/-- What an event keeps in every phase, it keeps in each. -/
theorem SessionEvent.Keeps.keepsIn {e : SessionEvent σ} (h : e.Keeps Q) :
    e.KeepsIn fun _ => Q := by
  cases e with
  | credentials login => exact h
  | poll gRunning result =>
    cases result with
    | interrupted => trivial
    | failed => trivial
    | timeout tick => exact h
    | ready socket stdin =>
      cases stdin with
      | none => trivial
      | some line => exact h

/-- What is left of the buffer from an offset on stands in the stream behind whole frames. -/
def Aligned (app : App σ) (off : Nat) : Prop :=
  ∃ front : List Frame, app.received = front.flatMap Frame.encode ++ app.rbuf.drop off

/-- The frame at an offset is good, and the buffer is aligned behind it. -/
theorem Aligned.next {app : App σ} {off : Nat} (h : Aligned app off)
    (hgood : AllFrames Good app.received) {f : Frame} {rest : Bytes}
    (hrest : f.encode ++ rest = app.rbuf.drop off) :
    Good f ∧ Aligned app (off + (5 + f.payload.length)) := by
  obtain ⟨front, hfront⟩ := h
  rw [← hrest] at hfront
  refine ⟨hgood front f rest hfront, front ++ [f], ?_⟩
  rw [← List.drop_drop, ← hrest, ← Frame.length_encode, List.drop_left, hfront]
  simp

/-- A parse loop has kept the property and the bytes, and is aligned where it stopped. -/
structure KeptOn (Q : σ → Prop) (app app' : App σ) (stop : Option Nat) : Prop where
  state : Q app'.state
  rbuf : app'.rbuf = app.rbuf
  received : app'.received = app.received
  aligned : ∀ off ∈ stop, Aligned app' off

/-- The phase behind the parse loop of the login. -/
def stopPhase (stop : Option (Nat × World.LoginOutcome)) : Phase :=
  stop.elim .stopped fun s => loginPhase s.2

/-- The parse loop of the login. -/
theorem Aligned.loginParse_kept {off : Nat} {app : App σ} (h : Aligned app off) (fuel : Nat)
    (hclient : client.KeepsOn Good P) (hgood : AllFrames Good app.received)
    (hP : P .waiting app.state) :
    KeptOn (P (stopPhase (loginParse client fuel off app).2)) app
      (loginParse client fuel off app).1 ((loginParse client fuel off app).2.map Prod.fst) := by
  -- the loop ends at `off` for want of bytes
  have hwaits {app : App σ} {off : Nat} (h : Aligned app off) (hP : P .waiting app.state) :
      KeptOn (P .waiting) app app (some off) :=
    ⟨hP, rfl, rfl, by simpa using h⟩
  induction fuel generalizing off app with
  | zero => exact hwaits h hP
  | succ fuel ih =>
    rw [loginParse]
    split_ifs with hoff
    swap
    · exact hwaits h hP
    cases hv : protocolParse (app.rbuf.drop off) with
    | more => exact hwaits h hP
    | bad => exact ⟨hclient.stop _ _ (by simp) hP, rfl, rfl, by simp⟩
    | item consumed frame =>
      obtain ⟨type, payload⟩ := frame
      obtain ⟨f, rfl, rfl, rfl, rest, hrest⟩ := (protocolParse_eq_item _ _ _ _).mp hv
      obtain ⟨hf, hnext⟩ := h.next hgood hrest
      have hstate := hclient.login _ f (app.rbuf.drop (off + (5 + f.payload.length))) hf hP
      dsimp only
      -- an answer ends the loop behind its frame; anything else is passed over
      split_ifs with hwait
      · rw [hwait] at hstate
        have hnext' : Aligned (app.loginFrame client f.type f.payload
            (app.rbuf.drop (off + (5 + f.payload.length)))) (off + (5 + f.payload.length)) := hnext
        obtain ⟨hP', hrbuf, hreceived, haligned⟩ := ih hnext' hgood hstate
        exact ⟨hP', hrbuf, hreceived, haligned⟩
      · exact ⟨hstate, rfl, rfl, fun k hk => Option.mem_some_iff.mp hk ▸ hnext⟩

/-- The loop of `app_dispatch`. -/
theorem Aligned.dispatchLoop_kept {off : Nat} {app : App σ} (h : Aligned app off) (fuel : Nat)
    (hclient : client.KeepsOn Good P) (hgood : AllFrames Good app.received)
    (hP : P .running app.state) :
    KeptOn (P .running) app (dispatchLoop client.frame fuel off app).1
      (dispatchLoop client.frame fuel off app).2 := by
  have hstops {app : App σ} {off : Nat} (h : Aligned app off) (hP : P .running app.state) :
      KeptOn (P .running) app app (some off) :=
    ⟨hP, rfl, rfl, by simpa using h⟩
  induction fuel generalizing off app with
  | zero => exact hstops h hP
  | succ fuel ih =>
    rw [dispatchLoop]
    split_ifs with hoff
    swap
    · exact hstops h hP
    cases hv : protocolParse (app.rbuf.drop off) with
    | more => exact hstops h hP
    | bad => exact ⟨hP, rfl, rfl, by simp⟩
    | item consumed frame =>
      obtain ⟨type, payload⟩ := frame
      obtain ⟨f, rfl, rfl, rfl, rest, hrest⟩ := (protocolParse_eq_item _ _ _ _).mp hv
      obtain ⟨hf, hnext⟩ := h.next hgood hrest
      have hnext' : Aligned (app.handleFrame client.frame f.type f.payload
          (app.rbuf.drop (off + (5 + f.payload.length)))) (off + (5 + f.payload.length)) := hnext
      obtain ⟨hP', hrbuf, hreceived, haligned⟩ := ih hnext' hgood (hclient.frame _ f _ hf hP)
      exact ⟨hP', hrbuf, hreceived, haligned⟩

/-- The property holds of the state, and the buffer is aligned. -/
structure InStream (Q : σ → Prop) (app : App σ) : Prop where
  state : Q app.state
  aligned : Aligned app 0

/-- What a parse loop leaves in the buffer. -/
theorem KeptOn.rest {app app' : App σ} {off : Nat} (h : KeptOn Q app app' (some off)) :
    InStream Q { app' with rbuf := app'.rbuf.drop off } :=
  ⟨h.state, h.aligned off rfl⟩

/-- A parse loop that gives up leaves the buffer as it was. -/
theorem KeptOn.given_up {app app' : App σ} (h : KeptOn Q app app' none) (happ : Aligned app 0) :
    InStream Q app' := by
  refine ⟨h.state, ?_⟩
  rw [Aligned, h.received, h.rbuf]
  exact happ

/-- `app_dispatch` takes whole frames from the buffer. -/
theorem InStream.dispatch {app : App σ} (h : InStream (P .running) app)
    (hclient : client.KeepsOn Good P) (hgood : AllFrames Good app.received) :
    InStream (P .running) (appDispatch client.frame app) := by
  have hloop := h.aligned.dispatchLoop_kept app.rbuf.length hclient hgood h.state
  rw [appDispatch]
  generalize dispatchLoop client.frame app.rbuf.length 0 app = res at hloop ⊢
  obtain ⟨app', stop⟩ := res
  cases stop with
  | none => exact hloop.given_up h.aligned
  | some off => exact hloop.rest

/-- The login handles its frames, and hands the rest of the batch on. -/
theorem InStream.loginBatch {app : App σ} (h : InStream (P .waiting) app)
    (hclient : client.KeepsOn Good P) (hgood : AllFrames Good app.received) :
    InStream (P (loginBatch client app).phase) (loginBatch client app).app := by
  have hloop := h.aligned.loginParse_kept app.rbuf.length hclient hgood h.state
  rw [TCPClient.loginBatch]
  generalize loginParse client app.rbuf.length 0 app = res at hloop ⊢
  obtain ⟨app', stop⟩ := res
  cases stop with
  | none => exact hloop.given_up h.aligned
  | some stop =>
    obtain ⟨off, outcome⟩ := stop
    have hreceived : app'.received = app.received := hloop.received
    cases outcome with
    | waiting => exact hloop.rest
    | retry => exact hloop.rest
    | loggedIn =>
      -- the rest of the batch is dispatched before the loop, and then the tasks are reset
      have hrest : InStream (P .running) { app' with rbuf := app'.rbuf.drop off } := hloop.rest
      have hdispatched := hrest.dispatch hclient (by rw [hreceived]; exact hgood)
      exact ⟨hclient.reset _ hdispatched.state, hdispatched.aligned⟩

/-- Bytes are received, whatever becomes of the capacity. -/
theorem InStream.receive {app app' : App σ} (h : InStream Q app) {reallocOk go : Bool}
    (hroom : appEnsureCapacity app reallocOk = (app', go)) :
    InStream Q app' ∧ ∀ got, InStream Q
      { app' with rbuf := app'.rbuf ++ got, received := app'.received ++ got } := by
  have hstate : (appEnsureCapacity app reallocOk).1.state = app.state := by
    unfold appEnsureCapacity
    split_ifs <;> rfl
  obtain ⟨hrbuf, hreceived⟩ := Session.appEnsureCapacity_bytes app reallocOk
  rw [hroom] at hstate hrbuf hreceived
  obtain ⟨front, hfront⟩ := h.aligned
  have hP : Q app'.state := hstate ▸ h.state
  refine ⟨⟨hP, front, ?_⟩, fun got => ⟨hP, front, ?_⟩⟩
  · rw [hreceived, hrbuf]
    exact hfront
  · show app'.received ++ got = _ ++ (app'.rbuf ++ got).drop 0
    rw [hreceived, hrbuf, hfront, List.drop_zero, List.drop_zero, List.append_assoc]

/-- A login that gives up keeps the property. -/
theorem InStream.stop {app : App σ} (h : InStream (P .waiting) app)
    (hclient : client.KeepsOn Good P) : InStream (P .stopped) app :=
  ⟨hclient.stop _ _ (by simp) h.state, h.aligned⟩

/-- One `recv`, and the dispatch of what it brought. -/
theorem InStream.handleSocket {app : App σ} (h : InStream (P .running) app)
    (hclient : client.KeepsOn Good P) (reallocOk : Bool) (r : RecvResult)
    (hgood : AllFrames Good (appHandleSocket client.frame app reallocOk r).1.received) :
    InStream (P .running) (appHandleSocket client.frame app reallocOk r).1 := by
  revert hgood
  apply appHandleSocket_cases client.frame
    (P := fun res => AllFrames Good res.1.received → InStream (P .running) res.1)
  case full => exact fun app' hroom _ => (h.receive hroom).1
  case interrupted => exact fun app' hroom _ => (h.receive hroom).1
  case ended =>
    exact fun app' reason hroom _ _ _ =>
      ⟨(h.receive hroom).1.state, (h.receive hroom).1.aligned⟩
  case received =>
    intro app' got hroom _ hgood
    rw [(appDispatch_spec client.frame _).received] at hgood
    exact ((h.receive hroom).2 got).dispatch hclient hgood

/-- A round of `app_run`: the socket, then standard input. -/
theorem InStream.round {app : App σ} (h : InStream (P .running) app)
    (hclient : client.KeepsOn Good P) {gRunning : Bool} {result : PollResult σ}
    (hevent : (SessionEvent.poll gRunning result).KeepsIn P)
    (hgood : AllFrames Good (appRound client.frame app result).1.received) :
    InStream (P .running) (appRound client.frame app result).1 := by
  cases result with
  | interrupted => exact h
  | failed => exact ⟨h.state, h.aligned⟩
  | timeout tick =>
    have hstate := hevent app.state h.state
    rw [appRound]
    generalize tick app.state = res at hstate ⊢
    obtain ⟨s, go⟩ := res
    cases go <;> exact ⟨hstate, h.aligned⟩
  | ready socket stdin =>
    have hsocket : AllFrames Good (pollSocket client.frame app socket).1.received →
        InStream (P .running) (pollSocket client.frame app socket).1 := by
      cases socket with
      | none => exact fun _ => h
      | some io => exact h.handleSocket hclient io.1 io.2
    rw [appRound] at hgood ⊢
    generalize pollSocket client.frame app socket = res at hsocket hgood ⊢
    obtain ⟨app', go⟩ := res
    -- standard input is looked at only where the socket goes on
    cases go with
    | false => exact hsocket hgood
    | true =>
      cases stdin with
      | none => exact hsocket hgood
      | some line =>
        dsimp only [pollStdin] at hgood ⊢
        rw [appHandleStdin] at hgood ⊢
        have hline := hevent app'.state
        generalize line app'.state = res at hline hgood ⊢
        obtain ⟨s, go⟩ := res
        cases go with
        | true => exact ⟨hline (hsocket hgood).state, (hsocket hgood).aligned⟩
        | false => exact ⟨hline (hsocket hgood).state, (hsocket hgood).aligned⟩

/-- A `poll` of the login. -/
theorem InStream.loginPoll {app : App σ} (h : InStream (P .waiting) app)
    (hclient : client.KeepsOn Good P) (gRunning : Bool) (result : PollResult σ)
    (hgood : AllFrames Good (loginPoll client app gRunning result).app.received) :
    InStream (P (loginPoll client app gRunning result).phase)
      (loginPoll client app gRunning result).app := by
  cases result with
  | interrupted => exact h
  | failed => exact h.stop hclient
  | timeout tick =>
    cases gRunning with
    | false => exact h.stop hclient
    | true => exact h
  | ready socket stdin =>
    cases gRunning with
    | false => exact h.stop hclient
    | true =>
      cases socket with
      | none => exact h
      | some io =>
        obtain ⟨reallocOk, r⟩ := io
        change AllFrames Good (loginSocket client app reallocOk r).app.received at hgood
        show InStream (P (loginSocket client app reallocOk r).phase)
          (loginSocket client app reallocOk r).app
        unfold loginSocket at hgood ⊢
        cases hroom : appEnsureCapacity app reallocOk with
        | mk app' go =>
          obtain ⟨hkept, hgot⟩ := h.receive hroom
          obtain ⟨hstate, haligned⟩ := hkept.stop hclient
          rw [hroom] at hgood
          cases go with
          | false => exact ⟨hstate, haligned⟩
          | true =>
            cases r with
            | interrupted => exact ⟨hstate, haligned⟩
            | failed => exact ⟨hstate, haligned⟩
            | data bs =>
              dsimp only at hgood ⊢
              split_ifs at hgood ⊢
              · exact ⟨hstate, haligned⟩
              · rw [Session.loginBatch_received] at hgood
                exact (hgot _).loginBatch hclient hgood

namespace Session

variable (client) in
/-- The session comes to `app_run`. -/
def reachesLoop (s : Session σ) : List (SessionEvent σ) → Bool
  | [] => decide (s.phase = .running)
  | e :: events => decide (s.phase = .running) || (s.step client e).reachesLoop events

variable (client) in
/-- A session that is in the loop has reached it. -/
theorem or_reachesLoop (s : Session σ) (events : List (SessionEvent σ)) :
    (decide (s.phase = .running) || s.reachesLoop client events) = s.reachesLoop client events := by
  cases events <;> simp [reachesLoop]

variable (client) in
/-- A session that is in the event loop has come there. -/
theorem reachesLoop_of_running (s : Session σ) (events : List (SessionEvent σ))
    (h : (s.run client events).phase = .running) : s.reachesLoop client events = true := by
  induction events generalizing s with
  | nil => exact decide_eq_true h
  | cons e events ih => rw [reachesLoop, ih (s.step client e) h, Bool.or_true]

/-- The property of the phase holds; behind the event loop it is still that of the loop. -/
def Stands (P : Phase → σ → Prop) (reached : Bool) (s : Session σ) : Prop :=
  match reached with
  | false => s.phase ≠ .running ∧ InStream (P s.phase) s.app
  | true => (s.phase = .running ∨ s.phase = .stopped) ∧ InStream (P .running) s.app

/-- The property itself, of the phase the session has come to. -/
theorem Stands.state {reached : Bool} {s : Session σ} (h : s.Stands P reached) :
    P (if reached then .running else s.phase) s.app.state := by
  cases reached with
  | false => exact h.2.state
  | true => exact h.2.state

/-- **Step lemma.** -/
theorem Stands.step {reached : Bool} {s : Session σ} (h : s.Stands P reached)
    (hclient : client.KeepsOn Good P) {e : SessionEvent σ} (hevent : e.KeepsIn P)
    (hgood : AllFrames Good (s.step client e).app.received) :
    (s.step client e).Stands P (reached || decide ((s.step client e).phase = .running)) := by
  obtain ⟨app, phase⟩ := s
  cases reached with
  | true =>
    -- behind the login there are only the loop and its end
    rw [Bool.true_or]
    obtain ⟨hphase | hphase, happ⟩ := h
    · obtain rfl : phase = .running := hphase
      cases e with
      | credentials login => exact ⟨Or.inl rfl, happ⟩
      | poll gRunning result =>
        by_cases hlive : app.running ∧ gRunning
        · rw [step_live client hlive] at hgood ⊢
          refine ⟨?_, happ.round hclient hevent hgood⟩
          dsimp only
          split_ifs
          · exact Or.inl rfl
          · exact Or.inr rfl
        · rw [step_over client hlive]
          exact ⟨Or.inr rfl, happ⟩
    · obtain rfl : phase = .stopped := hphase
      rw [step_stopped]
      exact ⟨Or.inr rfl, happ⟩
  | false =>
    obtain ⟨hphase, happ⟩ := h
    rw [Bool.false_or]
    -- whether the event reaches the loop is read off the phase behind it
    have hstands {s' : Session σ} (hs' : InStream (P s'.phase) s'.app) :
        s'.Stands P (decide (s'.phase = .running)) := by
      by_cases hrunning : s'.phase = .running
      · rw [decide_eq_true hrunning]
        exact ⟨Or.inl hrunning, hrunning ▸ hs'⟩
      · rw [decide_eq_false hrunning]
        exact ⟨hrunning, hs'⟩
    cases e with
    | credentials login =>
      cases phase with
      | prompting => exact hstands ⟨hevent app.state happ.state, happ.aligned⟩
      | running => exact absurd rfl hphase
      | _ => exact hstands happ
    | poll gRunning result =>
      cases phase with
      | waiting => exact hstands (happ.loginPoll hclient gRunning result hgood)
      | running => exact absurd rfl hphase
      | _ => exact hstands happ

/-- **Run lemma.** -/
theorem Stands.run {reached : Bool} {s : Session σ} (h : s.Stands P reached)
    (hclient : client.KeepsOn Good P) {events : List (SessionEvent σ)}
    (hevents : ∀ e ∈ events, e.KeepsIn P)
    (hgood : AllFrames Good (s.run client events).app.received) :
    (s.run client events).Stands P (reached || s.reachesLoop client events) := by
  have hreached {reached : Bool} {s : Session σ} (h : s.Stands P reached) :
      (reached || decide (s.phase = .running)) = reached := by
    cases reached with
    | true => rfl
    | false => exact decide_eq_false h.1
  induction events generalizing s reached with
  | nil =>
    rw [reachesLoop, hreached h]
    exact h
  | cons e events ih =>
    have hreceived := run_received client (s.step client e) events
    have hstep := h.step hclient (hevents e List.mem_cons_self) (hgood.of_prefix hreceived)
    have hrest := ih hstep (fun e' he' => hevents e' (List.mem_cons_of_mem e he')) hgood
    rw [Bool.or_assoc, or_reachesLoop] at hrest
    rw [reachesLoop, ← Bool.or_assoc, hreached h]
    exact hrest

/-- **Run rule.** The property of a phase holds in it, in every session that receives good frames
    only, however they are cut and whatever stands next to them. -/
theorem run_frames (hclient : client.KeepsOn Good P) {state : σ} (hstate : P .prompting state)
    {events : List (SessionEvent σ)} (hevents : ∀ e ∈ events, e.KeepsIn P)
    (hgood : AllFrames Good ((connect state).run client events).app.received) :
    ((connect state).run client events).Stands P ((connect state).reachesLoop client events) := by
  have hstart : (connect state).Stands P false := ⟨by simp [connect], hstate, [], rfl⟩
  exact hstart.run hclient hevents hgood

end Session

end Machine

/-! ### The client -/

/-- `login_loop` has returned 0. -/
def Surroundings.loggedIn (env : Surroundings) (events : List ConsoleEvent) : Bool :=
  env.start.reachesLoop env.client (events.map ConsoleEvent.toEvent)

/-- A frame that neither the login nor the event loop reads beyond its payload. -/
def IsConfined (f : UInt8 × Bytes) : Prop := AppConfined f.1 f.2 ∧ LoginConfined f.1 f.2

/-- The handlers of the client do not fail on a confined frame. -/
theorem keepsOn_client (env : Surroundings) :
    env.client.KeepsOn (fun f => IsConfined f.parsed) fun _ k => ∃ w, w ∈ k.state.1 where
  login k f rest hf h := by
    obtain ⟨w, hw⟩ := h
    obtain ⟨res, hres⟩ := (confined_loginHandleFrame w f.type f.payload).mpr hf.2
    have hhandled : w.loginHandleFrame f.type (span f.payload rest) = some res := hres rest
    refine ⟨res.1, ?_⟩
    show (k.state.1.bind fun w => (w.loginHandleFrame f.type (span f.payload rest)).map Prod.fst) =
      some res.1
    rw [Option.mem_def.mp hw, Option.bind_some, hhandled]
    rfl
  frame k f rest hf h := by
    obtain ⟨w, hw⟩ := h
    obtain ⟨w', hw'⟩ := (confined_appHandleFrame w (k.state.2 0) f.type f.payload).mpr hf.1
    have hhandled : w.appHandleFrame (k.state.2 0) f.type (span f.payload rest)
        f.payload.length = some w' := hw' rest
    refine ⟨w', ?_⟩
    show (k.state.1.bind fun w => w.appHandleFrame (k.state.2 0) f.type (span f.payload rest)
      f.payload.length) = some w'
    rw [Option.mem_def.mp hw, Option.bind_some, hhandled]
  reset k h := by
    obtain ⟨w, hw⟩ := h
    exact ⟨w.fileResetAll env.resetIo, congrArg (Option.map _) hw⟩
  stop _ _ _ h := h

/-- Neither do its other events, which read no payload. -/
theorem keeps_world (e : ConsoleEvent) : e.toEvent.Keeps fun k => ∃ w, w ∈ k.state.1 := by
  have htake (k : Console) (io : LineIo) (reading : Reading) (h : ∃ w, w ∈ k.state.1) :
      ∃ w, w ∈ (k.take (clientLines io) reading).1.state.1 := by
    obtain ⟨stdin, inputs, ⟨state, ios⟩⟩ := k
    obtain ⟨w, rfl⟩ := h
    rw [Keyboard.take]
    generalize reading.read.run stdin = res
    obtain ⟨input, stdin'⟩ := res
    cases input with
    | eof => exact ⟨w, rfl⟩
    | tooLong => exact ⟨w, rfl⟩
    | line text => exact ⟨_, rfl⟩
    | login names =>
      cases names with
      | none => exact ⟨w, rfl⟩
      | some names => exact ⟨_, rfl⟩
  cases e with
  | names io => exact fun k h => htake k io .names h
  | poll gRunning result =>
    cases result with
    | interrupted => trivial
    | failed => trivial
    | timeout io =>
      intro k h
      obtain ⟨stdin, inputs, ⟨state, ios⟩⟩ := k
      obtain ⟨w, rfl⟩ := h
      exact ⟨_, rfl⟩
    | ready socket stdin =>
      cases stdin with
      | none => trivial
      | some io => exact fun k h => htake k io .input h

/-- **No read behind a payload.** If every frame of the stream that is received is confined to its
    payload, then the whole session is, however the stream is cut and whatever stands next to a
    frame in the buffer. -/
theorem console_inside {env : Surroundings} {events : List ConsoleEvent}
    (h : ∀ f ∈ (whole protocolParse (env.session events).app.received).items, IsConfined f) :
    ∃ w, w ∈ env.world events := by
  refine (Session.run_frames (keepsOn_client env) ⟨World.init env.disk, rfl⟩ (fun e he => ?_)
    (allFrames_of_whole h)).state
  obtain ⟨e, -, rfl⟩ := List.mem_map.mp he
  exact (keeps_world e).keepsIn

theorem console_inside_acceptance :
    (eve.session acceptance).app.received =
        [welcomeFrame, offeredFrame, offeredInitFrame].flatMap Frame.encode ∧
      ∃ w, w ∈ eve.world acceptance := by
  have hreceived : (eve.session acceptance).app.received =
      [welcomeFrame, offeredFrame, offeredInitFrame].flatMap Frame.encode := by decide
  refine ⟨hreceived, console_inside fun f hf => ?_⟩
  have hwhole := whole_sent [welcomeFrame, offeredFrame, offeredInitFrame] protocolParse_stable.nil
  rw [List.append_nil] at hwhole
  rw [hreceived, hwhole] at hf
  have herror : msgServerMsg ≠ msgError := by decide
  have husers : msgServerMsg ≠ msgOnlineUsers := by decide
  have hserver {payload : Bytes} (hnul : 0 ∈ payload) : IsConfined (msgServerMsg, payload) :=
    ⟨⟨fun _ => hnul, fun h => absurd h herror, fun h => absurd h husers⟩, fun _ => hnul,
      fun h => absurd h herror⟩
  simp only [List.map_cons, List.map_nil, List.mem_cons, List.not_mem_nil, or_false] at hf
  rcases hf with rfl | rfl | rfl
  · exact hserver (by decide)
  · exact hserver (by decide)
  · refine ⟨⟨fun h => absurd h ?_, fun h => absurd h ?_, fun h => absurd h ?_⟩,
      fun h => absurd h ?_, fun h => absurd h ?_⟩ <;> decide

end TCPClient
