import TCPClient.Confinement
import TCPClient.CommandLine

namespace TCPClient

open Octets Memory Feed

/-!
# `app.c` — a session: `app_connect` and `app_run`

`login_loop` and the event loop behind it as one machine.  Between two events the client waits
for its user (`prompting`), for the server's answer to the credentials (`waiting`) or in the
event loop (`running`).  The calls of `poll` on the socket are made in the last two.

The main result is `no_frame_behind_poll`: as long as nothing complete stands behind the error
frame of a refused login, no `poll` is called with a complete frame in the buffer.
-/

/-- What a session does with a frame during the login and afterwards, and `file_reset_all`. -/
structure Handlers (σ : Type) where
  login : σ → UInt8 → Ptr → σ
  frame : Handler σ
  reset : σ → σ

/-- Where a session stands. -/
inductive Phase where
  | prompting
  | waiting
  | running
  | stopped
  deriving DecidableEq, Repr

/-- What happens next: the user enters credentials and they are sent (`commands_login`, with
    whether it succeeds), or `poll` returns, with the value of `g_running` seen next to it.  The
    login polls the socket only; there standard input is not looked at. -/
inductive SessionEvent (σ : Type) where
  | credentials (login : σ → σ × Bool)
  | poll (gRunning : Bool) (result : PollResult σ)

/-- A readable socket, and nothing on standard input. -/
def socketPoll {σ : Type} (bs : Bytes) : Bool × PollResult σ :=
  (true, .ready (some (true, .data bs)) none)

def receives {σ : Type} (bs : Bytes) : SessionEvent σ :=
  .poll (socketPoll (σ := σ) bs).1 (socketPoll bs).2

/-- `app_t` and the place in the code. -/
structure Session (σ : Type) where
  app : App σ
  phase : Phase

/-- `outcome` in `login_loop`, by the type of the frame. -/
def loginOutcome (type : UInt8) : World.LoginOutcome :=
  if type = msgServerMsg then .loggedIn
  else if type = msgError then .retry
  else .waiting

section Machine

variable {σ : Type} (client : Handlers σ)

/-! ### The login -/

/-- Pass a frame to the login: no call of `app_handle_frame`. -/
def App.loginFrame (app : App σ) (type : UInt8) (payload rest : Bytes) : App σ :=
  { app with state := client.login app.state type (span payload rest) }

/-- The parse loop of `login_loop`, from offset `off`: where it stopped and with which outcome,
    or `none` on a protocol error. -/
def loginParse : Nat → Nat → App σ → App σ × Option (Nat × World.LoginOutcome)
  | 0, off, app => (app, some (off, .waiting))
  | fuel + 1, off, app =>
    if off < app.rbuf.length then
      match protocolParse (app.rbuf.drop off) with
      | .bad => ({ app with stops := app.stops ++ [.protocolError] }, none)
      | .more => (app, some (off, .waiting))
      | .item consumed (type, payload) =>
        let app := app.loginFrame client type payload (app.rbuf.drop (off + consumed))
        -- the frame that decides the login ends the loop, with whatever stands behind it
        if loginOutcome type = .waiting then loginParse fuel (off + consumed) app
        else (app, some (off + consumed, loginOutcome type))
    else (app, some (off, .waiting))

/-- `login_loop` behind `recv`: parse, keep what is left, and go on by the outcome.  After the
    Welcome the rest of the batch is dispatched at once; then `app_connect` resets the file
    module. -/
def loginBatch (app : App σ) : Session σ :=
  match loginParse client app.rbuf.length 0 app with
  | (app, none) => ⟨app, .stopped⟩
  | (app, some (off, outcome)) =>
    let app := { app with rbuf := app.rbuf.drop off }
    match outcome with
    | .waiting => ⟨app, .waiting⟩
    -- the prompt comes at once, and what is left in the buffer is not looked at
    | .retry => ⟨app, .prompting⟩
    | .loggedIn =>
      -- `app_dispatch` is still part of `login_loop`, `file_reset_all` is not
      let app := appDispatch client.frame app
      ⟨{ app with state := client.reset app.state }, .running⟩

/-- The socket part of `login_loop`; unlike `app_handle_socket`, it takes a signal during `recv`
    for a lost connection. -/
def loginSocket (app : App σ) (reallocOk : Bool) (r : RecvResult) : Session σ :=
  match appEnsureCapacity app reallocOk with
  | (app, false) => ⟨app, .stopped⟩
  | (app, true) =>
    match r with
    | .interrupted | .failed => ⟨{ app with stops := app.stops ++ [.serverClosed] }, .stopped⟩
    | .data bs =>
      let got := bs.take (app.rbufCap - app.rbuf.length)
      if got = [] then ⟨{ app with stops := app.stops ++ [.serverClosed] }, .stopped⟩
      else loginBatch client { app with rbuf := app.rbuf ++ got, received := app.received ++ got }

/-- One `poll` of `login_loop`: an error is looked at before `g_running`. -/
def loginPoll (app : App σ) (gRunning : Bool) : PollResult σ → Session σ
  | .interrupted => ⟨app, .waiting⟩
  | .failed => ⟨app, .stopped⟩
  | .timeout _ => if gRunning then ⟨app, .waiting⟩ else ⟨app, .stopped⟩
  | .ready socket _ =>
    if ¬ gRunning then ⟨app, .stopped⟩
    else
      match socket with
      | none => ⟨app, .waiting⟩
      | some (reallocOk, r) => loginSocket client app reallocOk r

/-! ### The session -/

namespace Session

/-- `app_connect` before the login. -/
def connect (state : σ) : Session σ := ⟨App.start [] appRbufInit state, .prompting⟩

/-- One step; an event that does not belong to the phase changes nothing. -/
def step (s : Session σ) : SessionEvent σ → Session σ
  | .credentials login =>
    match s.phase with
    | .prompting =>
      let (state, ok) := login s.app.state
      ⟨{ s.app with state := state }, if ok then .waiting else .stopped⟩
    | _ => s
  | .poll gRunning result =>
    match s.phase with
    | .waiting => loginPoll client s.app gRunning result
    | .running =>
      if ¬ (s.app.running ∧ gRunning) then ⟨s.app, .stopped⟩
      else
        match appRound client.frame s.app result with
        | (app, true) => ⟨app, .running⟩
        | (app, false) => ⟨app, .stopped⟩
    | _ => s

def run (s : Session σ) (events : List (SessionEvent σ)) : Session σ := events.foldl (step client) s

/-- `poll` is about to be called on the socket. -/
def AtPoll (s : Session σ) : Prop :=
  s.phase = .waiting ∨ s.phase = .running ∧ s.app.running = true

/-- Every step of the run meets a condition on the state before it and the event. -/
def Along (P : Session σ → SessionEvent σ → Prop) : Session σ → List (SessionEvent σ) → Prop
  | _, [] => True
  | s, e :: events => P s e ∧ Along P (s.step client e) events

/-- **Run rule**: what a step keeps under a condition holds at the end of every run whose steps
    meet it. -/
theorem Along.invariant {P : Session σ → SessionEvent σ → Prop} {I : Session σ → Prop}
    (hstep : ∀ s e, I s → P s e → I (s.step client e)) {s : Session σ} (hs : I s)
    {events : List (SessionEvent σ)} (hP : s.Along client P events) : I (s.run client events) := by
  induction events generalizing s with
  | nil => exact hs
  | cons e events ih => exact ih (hstep s e hs hP.1) hP.2

@[simp] theorem step_stopped (app : App σ) (e : SessionEvent σ) :
    step client ⟨app, .stopped⟩ e = ⟨app, .stopped⟩ := by
  cases e <;> rfl

@[simp] theorem run_stopped (app : App σ) (events : List (SessionEvent σ)) :
    run client ⟨app, .stopped⟩ events = ⟨app, .stopped⟩ := by
  induction events with
  | nil => rfl
  | cons e events ih => rw [run, List.foldl_cons, step_stopped]; exact ih

/-- The loop condition fails. -/
theorem step_over {app : App σ} {gRunning : Bool} (hover : ¬ (app.running ∧ gRunning))
    (result : PollResult σ) :
    step client ⟨app, .running⟩ (.poll gRunning result) = ⟨app, .stopped⟩ :=
  if_pos hover

/-- One round of the loop. -/
theorem step_live {app : App σ} {gRunning : Bool} (hlive : app.running ∧ gRunning)
    (result : PollResult σ) :
    step client ⟨app, .running⟩ (.poll gRunning result) =
      ⟨(appRound client.frame app result).1,
        if (appRound client.frame app result).2 then .running else .stopped⟩ := by
  rw [step, if_neg (not_not_intro hlive)]
  obtain ⟨app', go⟩ := appRound client.frame app result
  cases go <;> rfl

/-- Behind the login a session is `app_run`. -/
theorem run_running (app : App σ) (polls : List (Bool × PollResult σ)) :
    (run client ⟨app, .running⟩ (polls.map fun p => .poll p.1 p.2)).app =
      appRun client.frame app polls := by
  induction polls generalizing app with
  | nil => rfl
  | cons poll polls ih =>
    -- `app_run` returns where the machine stops, and a stopped machine stays as it is
    rw [List.map_cons, run, List.foldl_cons, appRun]
    by_cases hlive : app.running ∧ poll.1
    · rw [step_live client hlive, if_neg (not_not_intro hlive)]
      obtain ⟨app', go⟩ := appRound client.frame app poll.2
      cases go with
      | true => exact ih app'
      | false => exact congrArg Session.app (run_stopped client app' _)
    · rw [step_over client hlive, if_pos hlive]
      exact congrArg Session.app (run_stopped client app _)

/-- The event loop is left for good. -/
theorem run_running_phase (app : App σ) (polls : List (Bool × PollResult σ)) :
    (run client ⟨app, .running⟩ (polls.map fun p => .poll p.1 p.2)).phase ≠ .waiting := by
  induction polls generalizing app with
  | nil => simp [run]
  | cons poll polls ih =>
    have hstopped (app : App σ) : (run client ⟨app, .stopped⟩
        (polls.map fun p => .poll p.1 p.2)).phase ≠ .waiting := by
      rw [run_stopped]
      simp
    rw [List.map_cons, run, List.foldl_cons]
    by_cases hlive : app.running ∧ poll.1
    · rw [step_live client hlive]
      obtain ⟨app', go⟩ := appRound client.frame app poll.2
      cases go with
      | true => exact ih app'
      | false => exact hstopped app'
    · rw [step_over client hlive]
      exact hstopped app

/-! ### What has been received -/

@[simp] theorem loginParse_received (fuel off : Nat) (app : App σ) :
    (loginParse client fuel off app).1.received = app.received := by
  induction fuel generalizing off app with
  | zero => rfl
  | succ fuel ih =>
    rw [loginParse]
    split_ifs
    · cases protocolParse (app.rbuf.drop off) with
      | more => rfl
      | bad => rfl
      | item consumed frame =>
        dsimp only
        split_ifs
        · exact ih _ _
        · rfl
    · rfl

@[simp] theorem loginBatch_received (app : App σ) :
    (loginBatch client app).app.received = app.received := by
  have hparse := loginParse_received client app.rbuf.length 0 app
  rw [loginBatch]
  generalize loginParse client app.rbuf.length 0 app = res at hparse ⊢
  obtain ⟨app', stop⟩ := res
  cases stop with
  | none => exact hparse
  | some stop =>
    obtain ⟨off, outcome⟩ := stop
    cases outcome with
    | waiting => exact hparse
    | retry => exact hparse
    | loggedIn => exact (appDispatch_spec client.frame _).received.trans hparse

omit client in
/-- Making room does not touch the bytes. -/
theorem appEnsureCapacity_bytes (app : App σ) (reallocOk : Bool) :
    (appEnsureCapacity app reallocOk).1.rbuf = app.rbuf ∧
      (appEnsureCapacity app reallocOk).1.received = app.received := by
  unfold appEnsureCapacity
  split_ifs <;> exact ⟨rfl, rfl⟩

omit client in
/-- **What one `poll` of the login can do**, whatever the client does with frames: wait on, stop,
    or receive a piece and parse. -/
theorem loginPoll_cases {app : App σ} {gRunning : Bool} {result : PollResult σ}
    {P : (Handlers σ → Session σ) → Prop} (waits : P fun _ => ⟨app, .waiting⟩)
    (stops : ∀ app' : App σ, app'.received = app.received → P fun _ => ⟨app', .stopped⟩)
    (receives : ∀ reallocOk bs stdin app',
      result = .ready (some (reallocOk, .data bs)) stdin →
        appEnsureCapacity app reallocOk = (app', true) →
          P fun client => loginBatch client
            { app' with
              rbuf := app'.rbuf ++ bs.take (app'.rbufCap - app'.rbuf.length)
              received := app'.received ++ bs.take (app'.rbufCap - app'.rbuf.length) }) :
    P fun client => loginPoll client app gRunning result := by
  cases result with
  | interrupted => exact waits
  | failed => exact stops app rfl
  | timeout tick =>
    cases gRunning with
    | false => exact stops app rfl
    | true => exact waits
  | ready socket stdin =>
    cases gRunning with
    | false => exact stops app rfl
    | true =>
      cases socket with
      | none => exact waits
      | some io =>
        obtain ⟨reallocOk, r⟩ := io
        have hbytes := (appEnsureCapacity_bytes app reallocOk).2
        show P fun client => loginSocket client app reallocOk r
        unfold loginSocket
        cases hroom : appEnsureCapacity app reallocOk with
        | mk app' go =>
          rw [hroom] at hbytes
          cases go with
          | false => exact stops app' hbytes
          | true =>
            cases r with
            | interrupted => exact stops _ hbytes
            | failed => exact stops _ hbytes
            | data bs =>
              by_cases hnil : bs.take (app'.rbufCap - app'.rbuf.length) = []
              · simp only [if_pos hnil]
                exact stops _ hbytes
              · simp only [if_neg hnil]
                exact receives reallocOk bs stdin app' rfl hroom

theorem loginPoll_received (app : App σ) (gRunning : Bool) (result : PollResult σ) :
    app.received <+: (loginPoll client app gRunning result).app.received := by
  apply loginPoll_cases (P := fun polled => app.received <+: (polled client).app.received)
  case waits => exact List.prefix_refl _
  case stops => exact fun app' hreceived => hreceived ▸ List.prefix_refl _
  case receives =>
    -- only `recv` adds bytes; the parse loop behind it adds none
    intro reallocOk bs stdin app' _ hroom
    have hbytes := (appEnsureCapacity_bytes app reallocOk).2
    rw [hroom] at hbytes
    rw [loginBatch_received, ← hbytes]
    exact List.prefix_append _ _

theorem appRound_received (app : App σ) (result : PollResult σ) :
    app.received <+: (appRound client.frame app result).1.received := by
  have hP : LoopProperty fun app' : App σ => app.received <+: app'.received :=
    ⟨fun h _ => h, fun h _ _ _ _ _ => h⟩
  refine hP.round client.frame (List.prefix_refl _) (fun reallocOk r => ?_) result
  have hbytes := (appEnsureCapacity_bytes app reallocOk).2
  apply appHandleSocket_cases client.frame (P := fun res => app.received <+: res.1.received)
  case full =>
    intro app' hroom
    rw [hroom] at hbytes
    exact hbytes ▸ List.prefix_refl _
  case interrupted =>
    intro app' hroom
    rw [hroom] at hbytes
    exact hbytes ▸ List.prefix_refl _
  case ended =>
    intro app' reason hroom _ _
    rw [hroom] at hbytes
    exact hbytes ▸ List.prefix_refl _
  case received =>
    intro app' got hroom _
    rw [hroom] at hbytes
    show app.received <+: (appDispatch client.frame _).received
    rw [(appDispatch_spec client.frame _).received, ← hbytes]
    exact List.prefix_append _ _

/-- What has been received stays received. -/
theorem run_received (s : Session σ) (events : List (SessionEvent σ)) :
    s.app.received <+: (s.run client events).app.received := by
  induction events generalizing s with
  | nil => exact List.prefix_refl _
  | cons e events ih =>
    refine List.IsPrefix.trans ?_ (ih (s.step client e))
    obtain ⟨app, phase⟩ := s
    cases e with
    | credentials login => cases phase <;> exact List.prefix_refl _
    | poll gRunning result =>
      cases phase with
      | prompting => exact List.prefix_refl _
      | waiting => exact loginPoll_received client app gRunning result
      | running =>
        by_cases hlive : app.running ∧ gRunning
        · rw [step_live client hlive]
          exact appRound_received client app result
        · rw [step_over client hlive]
      | stopped => exact List.prefix_refl _

/-! ### What is left in the buffer -/

/-- The login is decided in a buffer: frames it passes over, the frame that decides it, and what
    stands behind. -/
def DecidedBy (outcome : World.LoginOutcome) (buf rest : Bytes) : Prop :=
  ∃ (skipped : List Frame) (last : Frame),
    (∀ f ∈ skipped, loginOutcome f.type = .waiting) ∧ loginOutcome last.type = outcome ∧
      buf = skipped.flatMap Frame.encode ++ (last.encode ++ rest)

/-- The buffer after a `recv` that the kernel could fill with `bs`. -/
def recvBuffer (app : App σ) (reallocOk : Bool) (bs : Bytes) : Bytes :=
  app.rbuf ++ bs.take ((appEnsureCapacity app reallocOk).1.rbufCap - app.rbuf.length)

/-- What is received does not refuse the login with more behind the refusal than the beginning
    of a frame. -/
def NothingBehindRefusal (s : Session σ) : SessionEvent σ → Prop
  | .poll _ (.ready (some (reallocOk, .data bs)) _) =>
    s.phase = .waiting → ∀ rest, DecidedBy .retry (recvBuffer s.app reallocOk bs) rest →
      protocolParse rest = .more
  | _ => True

omit client in
/-- A frame that is passed over stands in front of what decides the login. -/
theorem DecidedBy.skip {outcome : World.LoginOutcome} {f : Frame} {buf rest : Bytes}
    (hf : loginOutcome f.type = .waiting) (h : DecidedBy outcome buf rest) :
    DecidedBy outcome (f.encode ++ buf) rest := by
  obtain ⟨skipped, last, hskip, hlast, rfl⟩ := h
  refine ⟨f :: skipped, last, ?_, hlast, by simp⟩
  intro g hg
  rcases List.mem_cons.mp hg with rfl | hg
  · exact hf
  · exact hskip g hg

omit client in
/-- The first frame that is not passed over decides. -/
theorem DecidedBy.first {outcome : World.LoginOutcome} (f : Frame) {tail rest : Bytes}
    (hf : loginOutcome f.type ≠ .waiting) (h : DecidedBy outcome (f.encode ++ tail) rest) :
    outcome = loginOutcome f.type ∧ rest = tail := by
  obtain ⟨skipped, last, hskip, rfl, hbuf⟩ := h
  -- both sides start with the same frame
  have hsame {g : Frame} {bs : Bytes} (heq : f.encode ++ tail = g.encode ++ bs) :
      f.type = g.type ∧ tail = bs := by
    have hparse := congrArg protocolParse heq
    rw [protocolParse_encode, protocolParse_encode] at hparse
    simp only [Outcome.item.injEq, Prod.mk.injEq] at hparse
    refine ⟨hparse.2.1, (List.append_inj heq ?_).2⟩
    rw [Frame.length_encode, Frame.length_encode, hparse.1]
  cases skipped with
  | nil =>
    obtain ⟨htype, htail⟩ := hsame hbuf
    exact ⟨congrArg loginOutcome htype.symm, htail.symm⟩
  | cons g skipped =>
    rw [List.flatMap_cons, List.append_assoc] at hbuf
    have hg := hskip g (by simp)
    rw [← (hsame hbuf).1] at hg
    exact absurd hg hf

/-- **Parse loop specification.** The loop leaves the buffer alone.  It stops where the parser
    asks for more, or behind the frame that decides the login. -/
theorem loginParse_spec (fuel off : Nat) (app : App σ) (hfuel : app.rbuf.length - off ≤ fuel)
    {app' : App σ} {off' : Nat} {outcome : World.LoginOutcome}
    (hres : loginParse client fuel off app = (app', some (off', outcome))) :
    app'.rbuf = app.rbuf ∧
      (outcome = .waiting → protocolParse (app.rbuf.drop off') = .more) ∧
      (outcome ≠ .waiting → DecidedBy outcome (app.rbuf.drop off) (app.rbuf.drop off')) := by
  have hdone (app : App σ) (off : Nat) (hmore : protocolParse (app.rbuf.drop off) = .more)
      (hres : (app, some (off, World.LoginOutcome.waiting)) = (app', some (off', outcome))) :
      app'.rbuf = app.rbuf ∧
        (outcome = .waiting → protocolParse (app.rbuf.drop off') = .more) ∧
        (outcome ≠ .waiting → DecidedBy outcome (app.rbuf.drop off) (app.rbuf.drop off')) := by
    obtain ⟨rfl, rfl, rfl⟩ := by simpa using hres
    exact ⟨rfl, fun _ => hmore, fun h => absurd rfl h⟩
  have hend (app : App σ) (off : Nat) (hle : app.rbuf.length ≤ off) :
      protocolParse (app.rbuf.drop off) = .more := by
    rw [List.drop_eq_nil_of_le hle]
    exact protocolParse_stable.nil
  -- on the fuel, which the bytes behind the offset never exceed
  induction fuel generalizing app off with
  | zero => exact hdone app off (hend app off (by omega)) hres
  | succ fuel ih =>
    rw [loginParse] at hres
    by_cases hoff : off < app.rbuf.length
    swap
    · rw [if_neg hoff] at hres
      exact hdone app off (hend app off (by omega)) hres
    rw [if_pos hoff] at hres
    cases hv : protocolParse (app.rbuf.drop off) with
    | more =>
      rw [hv] at hres
      exact hdone app off hv hres
    | bad =>
      rw [hv] at hres
      exact absurd (congrArg Prod.snd hres) (by simp)
    | item consumed frame =>
      obtain ⟨type, payload⟩ := frame
      rw [hv] at hres
      obtain ⟨f, rfl, rfl, rfl, rest, hrest⟩ := (protocolParse_eq_item _ _ _ _).mp hv
      -- the offset moves to what follows the frame
      have hdrop : app.rbuf.drop (off + (5 + f.payload.length)) = rest := by
        rw [← List.drop_drop, ← hrest, ← Frame.length_encode, List.drop_left]
      dsimp only at hres
      by_cases hwait : loginOutcome f.type = .waiting
      · rw [if_pos hwait] at hres
        obtain ⟨hbuf, hmore, hdec⟩ := ih _ (app.loginFrame client f.type f.payload _)
          (by show app.rbuf.length - _ ≤ _; omega) hres
        refine ⟨hbuf, hmore, fun hne => ?_⟩
        have := hdec hne
        rw [← hrest, ← hdrop]
        exact this.skip hwait
      · -- this frame decides, and nothing was skipped in front of it
        rw [if_neg hwait] at hres
        obtain ⟨rfl, rfl, rfl⟩ := by simpa using hres
        refine ⟨rfl, fun h => absurd h hwait, fun _ => ⟨[], f, by simp, rfl, ?_⟩⟩
        rw [hdrop, ← hrest]
        rfl

/-! ### No frame waits -/

/-- A client that goes on has parsed everything it can. -/
def Parsed (app : App σ) : Prop := app.running = true → protocolParse app.rbuf = .more

theorem parsed_appDispatch (app : App σ) : Parsed (appDispatch client.frame app) := by
  intro hrun
  have hd := appDispatch_spec client.frame app
  have hok : (whole protocolParse app.rbuf).bad = false := by
    rw [hd.running] at hrun
    simpa using (Bool.and_eq_true_iff.mp hrun).2
  rw [hd.left hok]
  exact more_of_whole protocolParse_stable hok

theorem Parsed.handleSocket {app : App σ} (hp : Parsed app) (reallocOk : Bool) (r : RecvResult) :
    Parsed (appHandleSocket client.frame app reallocOk r).1 := by
  have hcap : Parsed (appEnsureCapacity app reallocOk).1 := by
    unfold appEnsureCapacity
    split_ifs
    · exact hp
    · exact fun h => absurd h (by simp [App.halt])
    · exact hp
    · exact fun h => absurd h (by simp [App.halt])
  apply appHandleSocket_cases client.frame (P := fun res => Parsed res.1)
  case full => exact fun app' hroom => by rwa [hroom] at hcap
  case interrupted => exact fun app' hroom => by rwa [hroom] at hcap
  case ended => exact fun app' reason _ _ _ hrun => absurd hrun (by simp [App.halt])
  case received => exact fun app' got _ _ => parsed_appDispatch client _

omit client in
theorem parsed_loopProperty : LoopProperty (Parsed (σ := σ)) :=
  ⟨fun hp _ => hp, fun hp _ _ _ _ hrun hgo => hp (hrun hgo)⟩

/-- The session invariant: the buffer holds no complete frame, in the login or in a loop that
    goes on. -/
def NoFrame (s : Session σ) : Prop :=
  match s.phase with
  | .prompting | .waiting => protocolParse s.app.rbuf = .more
  | .running => Parsed s.app
  | .stopped => True

/-- A batch of the login keeps the invariant, unless it refuses the login with more behind the
    refusal. -/
theorem noFrame_loginBatch (app : App σ)
    (hclean : ∀ rest, DecidedBy .retry app.rbuf rest → protocolParse rest = .more) :
    NoFrame (loginBatch client app) := by
  rw [loginBatch]
  cases hres : loginParse client app.rbuf.length 0 app with
  | mk app' stop =>
    cases stop with
    | none => trivial
    | some stop =>
      obtain ⟨off, outcome⟩ := stop
      obtain ⟨hbuf, hmore, hdec⟩ := loginParse_spec client _ 0 app (by omega) hres
      cases outcome with
      | waiting =>
        show protocolParse (app'.rbuf.drop off) = .more
        rw [hbuf]
        exact hmore rfl
      | retry =>
        -- the one exit behind which nothing looks at the rest: here the condition is needed
        show protocolParse (app'.rbuf.drop off) = .more
        rw [hbuf]
        exact hclean _ (hdec (by simp))
      | loggedIn => exact parsed_appDispatch client _

theorem noFrame_loginPoll {app : App σ} (hmore : protocolParse app.rbuf = .more)
    (gRunning : Bool) (result : PollResult σ)
    (hclean : NothingBehindRefusal ⟨app, .waiting⟩ (.poll gRunning result)) :
    NoFrame (loginPoll client app gRunning result) := by
  apply loginPoll_cases (P := fun polled => NoFrame (polled client))
  case waits => exact hmore
  case stops => exact fun app' _ => trivial
  case receives =>
    rintro reallocOk bs stdin app' rfl hroom
    have hbuf := (appEnsureCapacity_bytes app reallocOk).1
    have hrest := hclean rfl
    rw [recvBuffer, hroom] at hrest
    rw [hroom] at hbuf
    rw [← show app'.rbuf = app.rbuf from hbuf] at hrest
    exact noFrame_loginBatch client _ hrest

/-- **Step lemma.** -/
theorem noFrame_step (s : Session σ) (e : SessionEvent σ) (hs : NoFrame s)
    (hclean : NothingBehindRefusal s e) : NoFrame (s.step client e) := by
  obtain ⟨app, phase⟩ := s
  cases e with
  | credentials login =>
    cases phase with
    | prompting =>
      rw [step]
      obtain ⟨state, ok⟩ := login app.state
      cases ok with
      | true => exact hs
      | false => trivial
    | _ => exact hs
  | poll gRunning result =>
    cases phase with
    | waiting => exact noFrame_loginPoll client hs gRunning result hclean
    | running =>
      have hround := parsed_loopProperty.round client.frame hs (hs.handleSocket client) result
      by_cases hlive : app.running ∧ gRunning
      · rw [step_live client hlive]
        generalize appRound client.frame app result = res at hround ⊢
        obtain ⟨app', go⟩ := res
        cases go with
        | true => exact hround
        | false => trivial
      · rw [step_over client hlive]
        trivial
    | _ => exact hs

/-- **No complete frame waits behind `poll`**, in any session in which no refusal of a login was
    received together with something complete behind it. -/
theorem no_frame_behind_poll (state : σ) (events : List (SessionEvent σ))
    (hclean : (connect state).Along client NothingBehindRefusal events) :
    let s := (connect state).run client events
    s.AtPoll → protocolParse s.app.rbuf = .more ∧ ∀ f : Frame, ¬ f.encode <+: s.app.rbuf := by
  intro s hpoll
  have hinv : NoFrame s :=
    hclean.invariant client (noFrame_step client)
      (show NoFrame (connect state) from protocolParse_stable.nil)
  have hmore : protocolParse s.app.rbuf = .more := by
    unfold NoFrame at hinv
    rcases hpoll with hwait | ⟨hrunning, hlive⟩
    · rw [hwait] at hinv
      exact hinv
    · rw [hrunning] at hinv
      exact hinv hlive
  refine ⟨hmore, ?_⟩
  -- a whole frame in front of the buffer would be parsed
  rintro f ⟨rest, hrest⟩
  rw [← hrest, protocolParse_encode] at hmore
  exact absurd hmore (by simp)

/-! ### What a refusal leaves -/

/-- One round of the loop on a whole frame. -/
theorem loginParse_frame {fuel off : Nat} {app : App σ} {f : Frame} {rest : Bytes}
    (hfuel : app.rbuf.length - off ≤ fuel) (hbuf : app.rbuf.drop off = f.encode ++ rest) :
    ∃ k, app.rbuf.length - (off + (5 + f.payload.length)) ≤ k ∧
      app.rbuf.drop (off + (5 + f.payload.length)) = rest ∧
      loginParse client fuel off app =
        if loginOutcome f.type = .waiting then
          loginParse client k (off + (5 + f.payload.length))
            (app.loginFrame client f.type f.payload rest)
        else
          (app.loginFrame client f.type f.payload rest,
            some (off + (5 + f.payload.length), loginOutcome f.type)) := by
  have hdrop : app.rbuf.drop (off + (5 + f.payload.length)) = rest := by
    rw [← List.drop_drop, hbuf, ← Frame.length_encode]
    exact List.drop_left
  have hlen := congrArg List.length hbuf
  rw [List.length_drop, List.length_append, Frame.length_encode] at hlen
  obtain ⟨k, rfl⟩ : ∃ k, fuel = k + 1 := ⟨fuel - 1, by omega⟩
  refine ⟨k, by omega, hdrop, ?_⟩
  rw [loginParse, if_pos (by omega), hbuf, protocolParse_encode]
  simp only [hdrop]

/-- The loop finds the frame that decides the login. -/
theorem loginParse_decided (fuel off : Nat) (app : App σ) (hfuel : app.rbuf.length - off ≤ fuel)
    {outcome : World.LoginOutcome} (hne : outcome ≠ .waiting) {rest : Bytes}
    (hdec : DecidedBy outcome (app.rbuf.drop off) rest) :
    ∃ app' off', loginParse client fuel off app = (app', some (off', outcome)) ∧
      app'.rbuf.drop off' = rest := by
  obtain ⟨skipped, last, hskip, rfl, hbuf⟩ := hdec
  induction skipped generalizing fuel off app with
  | nil =>
    obtain ⟨k, -, hdrop, hparse⟩ := loginParse_frame client hfuel hbuf
    rw [if_neg hne] at hparse
    exact ⟨_, _, hparse, hdrop⟩
  | cons f skipped ih =>
    rw [List.flatMap_cons, List.append_assoc] at hbuf
    obtain ⟨k, hk, hdrop, hparse⟩ := loginParse_frame client hfuel hbuf
    rw [if_pos (hskip f (by simp))] at hparse
    rw [hparse]
    exact ih _ _ (app.loginFrame client f.type f.payload _) hk
      (fun g hg => hskip g (List.mem_cons_of_mem _ hg)) hdrop

/-- A batch that refuses the login leaves what stands behind the refusal, and the next
    credentials lead to a `poll` in front of it. -/
theorem refused_then_polls (app : App σ) {rest : Bytes} (hdec : DecidedBy .retry app.rbuf rest)
    (login : σ → σ × Bool) (hlogin : ∀ state, (login state).2 = true) :
    let s := (loginBatch client app).step client (.credentials login)
    s.AtPoll ∧ s.app.rbuf = rest := by
  obtain ⟨app', off', hparse, hrest⟩ :=
    loginParse_decided client app.rbuf.length 0 app (by omega) (by simp) hdec
  have hbatch : loginBatch client app =
      ⟨{ app' with rbuf := app'.rbuf.drop off' }, .prompting⟩ := by
    rw [loginBatch, hparse]
  rw [hbatch]
  refine ⟨?_, hrest⟩
  show (ite ((login app'.state).2 = true) Phase.waiting Phase.stopped) = _ ∨ _
  rw [if_pos (hlogin _)]
  exact Or.inl rfl

end Session
end Machine

/-! ### The client -/

/-- The session of the client: what `app.c` does with frames, over what the environment answers
    to them and, at the end of the login, to `file_reset_all`. -/
def clientHandlers (resetIo : Slot → Io) : Handlers (Option World × (Nat → Io)) where
  login s type payload := (s.1.bind fun w => (w.loginHandleFrame type payload).map Prod.fst, s.2)
  frame := appHandler
  reset s := (s.1.map fun w => w.fileResetAll resetIo, s.2)

/-- The user enters names, and `commands_login` sends them. -/
def entersNames (sendOk : Bool) (names : Option (Bytes × Bytes)) :
    SessionEvent (Option World × (Nat → Io)) :=
  .credentials fun s =>
    match s.1 with
    | none => (s, true)
    | some w => ((some (w.commandsLogin sendOk names).1, s.2),
        (w.commandsLogin sendOk names).2 = .ok)

/-- A session with an empty download folder, in which everything succeeds. -/
def freshClient : Session (Option World × (Nat → Io)) :=
  .connect (some (World.init fun _ => none), fun _ => Io.ok)

/-- A user, and what the server may answer: a refusal, the Welcome. -/
def someUser : Option (Bytes × Bytes) := some ([98, 111, 98], [112, 119])
def refusalFrame : Frame := ⟨msgError, [0, 101, 0, 78, 111, 0], by decide⟩
def welcomeFrame : Frame := ⟨msgServerMsg, [72, 105, 0], by decide⟩

namespace Session

/-- A refusal with the first bytes of the Welcome behind it, and then the rest of the Welcome. -/
theorem no_frame_behind_poll_refused :
    let events := [entersNames true someUser,
      receives (refusalFrame.encode ++ [0xCA, 0xFE, 0x0F]), entersNames true someUser,
      receives [0, 3, 72, 105, 0]]
    let s := freshClient.run (clientHandlers fun _ => Io.ok) events
    s.AtPoll ∧ s.phase = .running ∧ protocolParse s.app.rbuf = .more := by
  intro events s
  have hpoll : s.AtPoll := Or.inr ⟨rfl, rfl⟩
  refine ⟨hpoll, rfl, ?_⟩
  refine (no_frame_behind_poll (clientHandlers fun _ => Io.ok) _ events ?_ hpoll).1
  refine ⟨trivial, fun _ rest hdec => ?_, trivial, fun _ rest hdec => ?_, trivial⟩
  · -- behind the refusal stands the beginning of a frame
    have hrest : rest = [0xCA, 0xFE, 0x0F] :=
      (DecidedBy.first refusalFrame (by decide) hdec).2
    rw [hrest]
    rfl
  · rw [show recvBuffer _ _ _ = welcomeFrame.encode ++ [] from rfl] at hdec
    have hretry := (DecidedBy.first welcomeFrame (by decide) hdec).1
    exact absurd hretry (by decide)

/-- A Welcome that arrives together with a refusal waits behind the `poll` that follows the
    next credentials. -/
theorem welcome_waits_behind_refusal :
    let s := freshClient.run (clientHandlers fun _ => Io.ok)
      [entersNames true someUser, receives (refusalFrame.encode ++ welcomeFrame.encode),
        entersNames true someUser]
    s.AtPoll ∧ s.phase = .waiting ∧ s.app.rbuf = welcomeFrame.encode :=
  ⟨Or.inl rfl, rfl, rfl⟩

end Session
end TCPClient
