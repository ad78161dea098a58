import TCPClient.Protocol
import TCPClient.Lib.Memory

namespace TCPClient

open Feed Memory

/-!
# `app.c` — the read buffer and the event loop

`app_dispatch`, `app_handle_socket`, `app_ensure_capacity` and `app_run`, over an arbitrary
state `σ` that frames, command lines and send ticks act on: how a frame is handled is a
parameter, what reaches the handler is the subject.  `calls` and `received` record the frames
passed to `app_handle_frame` and the bytes `recv` returned; no function reads them.

The main result is `appRun_segmentation`: whatever the splitting of the received stream, the
calls are the frames of the stream parsed as a whole.
-/

/-- Initial size and hard limit of the read buffer. -/
def appRbufInit : Nat := 64 * 1024
def appRbufMax : Nat := 256 * 1024

/-- Why the event loop is left.  The first six reasons stand for the `ui_print` lines that
    report them; `stdin` is whatever ended the input, and a failed send is not reported. -/
inductive StopReason where
  | bufferLimit
  | outOfMemory
  | protocolError
  | serverClosed
  | recvFailed
  | pollFailed
  | stdin
  | sendFailed
  deriving DecidableEq, Repr

/-- `app_t`, with the state behind the handlers and the reasons reported so far. -/
structure App (σ : Type) where
  rbuf : Bytes
  rbufCap : Nat
  running : Bool
  state : σ
  stops : List StopReason
  calls : List (UInt8 × Bytes)
  received : Bytes

/-- What one `recv` meets: the bytes the kernel holds (none at end of file), a signal, or an
    error. -/
inductive RecvResult where
  | data (bs : Bytes)
  | interrupted
  | failed

/-- What one `poll` of the event loop leads to.  On a timeout the send tick may run; otherwise
    the socket (with the outcome of `realloc`), then standard input.  A handler of `σ` answers
    whether the loop goes on. -/
inductive PollResult (σ : Type) where
  | interrupted
  | failed
  | timeout (tick : σ → σ × Bool)
  | ready (socket : Option (Bool × RecvResult)) (stdin : Option (σ → σ × Bool))

/-- A reason that was not reported, and is not reported next. -/
theorem not_reported {stops : List StopReason} {reason next : StopReason} (h : reason ∉ stops)
    (hne : reason ≠ next) : reason ∉ stops ++ [next] := by
  rw [List.mem_append, List.mem_singleton, not_or]
  exact ⟨h, hne⟩

variable {σ : Type}

namespace App

/-- The state in which `app_run` starts on a connection: what the login left in the buffer. -/
def start (rbuf : Bytes) (rbufCap : Nat) (state : σ) : App σ :=
  ⟨rbuf, rbufCap, true, state, [], [], []⟩

/-- Leave the loop for a reason. -/
def halt (app : App σ) (reason : StopReason) : App σ :=
  { app with running := false, stops := app.stops ++ [reason] }

end App

/-- `app_handle_frame`'s shape: the type byte, the payload pointer, the payload length. -/
abbrev Handler (σ : Type) := σ → UInt8 → Ptr → Nat → σ

section Loop

variable (handle : Handler σ)

/-- Pass a frame to the handler: `payload` points into the buffer, in front of `rest`. -/
def App.handleFrame (app : App σ) (type : UInt8) (payload rest : Bytes) : App σ :=
  { app with
    state := handle app.state type (span payload rest) payload.length
    calls := app.calls ++ [(type, payload)] }

/-- The loop of `app_dispatch`, from offset `off`: the offset where it stopped, or `none` on a
    protocol error. -/
def dispatchLoop : Nat → Nat → App σ → App σ × Option Nat
  | 0, off, app => (app, some off)
  | fuel + 1, off, app =>
    if off < app.rbuf.length then
      match protocolParse (app.rbuf.drop off) with
      | .more => (app, some off)
      | .bad => (app.halt .protocolError, none)
      | .item consumed (type, payload) =>
        dispatchLoop fuel (off + consumed)
          (app.handleFrame handle type payload (app.rbuf.drop (off + consumed)))
    else (app, some off)

/-- The end of `app_dispatch`: the consumed bytes are moved out of the buffer, unless the loop
    ended in a protocol error. -/
def dispatchRest : App σ × Option Nat → App σ
  | (app, none) => app
  | (app, some off) => { app with rbuf := app.rbuf.drop off }

/-- `app_dispatch`: every round of the loop uses up at least a header. -/
def appDispatch (app : App σ) : App σ :=
  dispatchRest (dispatchLoop handle app.rbuf.length 0 app)

/-- `app_ensure_capacity`: room for at least one byte, or the loop is left. -/
def appEnsureCapacity (app : App σ) (reallocOk : Bool) : App σ × Bool :=
  if app.rbuf.length < app.rbufCap then (app, true)
  else if app.rbufCap * 2 > appRbufMax then (app.halt .bufferLimit, false)
  else if ¬ reallocOk then (app.halt .outOfMemory, false)
  else ({ app with rbufCap := app.rbufCap * 2 }, true)

/-- `app_handle_socket`: `recv` fills at most the free part of the buffer. -/
def appHandleSocket (app : App σ) (reallocOk : Bool) (r : RecvResult) : App σ × Bool :=
  match appEnsureCapacity app reallocOk with
  | (app, false) => (app, false)
  | (app, true) =>
    match r with
    | .interrupted => (app, true)
    | .failed => (app.halt .recvFailed, false)
    | .data bs =>
      let got := bs.take (app.rbufCap - app.rbuf.length)
      if got = [] then (app.halt .serverClosed, false)
      else
        (appDispatch handle
          { app with rbuf := app.rbuf ++ got, received := app.received ++ got }, true)

/-- `app_handle_stdin`, as what the line handler answers. -/
def appHandleStdin (app : App σ) (line : σ → σ × Bool) : App σ × Bool :=
  match line app.state with
  | (s, true) => ({ app with state := s }, true)
  | (s, false) => ({ app with state := s }.halt .stdin, false)

/-- The two `revents` tests of `app_run`. -/
def pollSocket (app : App σ) : Option (Bool × RecvResult) → App σ × Bool
  | none => (app, true)
  | some (reallocOk, r) => appHandleSocket handle app reallocOk r

def pollStdin (app : App σ) : Option (σ → σ × Bool) → App σ × Bool
  | none => (app, true)
  | some line => appHandleStdin app line

/-- One iteration of `app_run` behind the loop condition; `false` is `break`. -/
def appRound (app : App σ) : PollResult σ → App σ × Bool
  | .interrupted => (app, true)
  | .failed => ({ app with stops := app.stops ++ [.pollFailed] }, false)
  | .timeout tick =>
    match tick app.state with
    | (s, true) => ({ app with state := s }, true)
    | (s, false) => ({ app with state := s, stops := app.stops ++ [.sendFailed] }, false)
  | .ready socket stdin =>
    match pollSocket handle app socket with
    | (app, true) => pollStdin app stdin
    | (app, false) => (app, false)

/-- `app_run` over the polls it makes, each with the value of `g_running` seen before it. -/
def appRun : App σ → List (Bool × PollResult σ) → App σ
  | app, [] => app
  | app, (gRunning, poll) :: polls =>
    if ¬ (app.running ∧ gRunning) then app
    else
      match appRound handle app poll with
      | (app', true) => appRun app' polls
      | (app', false) => app'

/-- **What one `app_handle_socket` can do**: give up for want of room, be interrupted, end with
    the connection, or receive a piece that fits and dispatch. -/
theorem appHandleSocket_cases {app : App σ} {reallocOk : Bool} {r : RecvResult}
    {P : App σ × Bool → Prop}
    (full : ∀ app', appEnsureCapacity app reallocOk = (app', false) → P (app', false))
    (interrupted : ∀ app', appEnsureCapacity app reallocOk = (app', true) → P (app', true))
    (ended : ∀ app' reason, appEnsureCapacity app reallocOk = (app', true) →
      reason ≠ .protocolError → reason ≠ .bufferLimit → P (app'.halt reason, false))
    (received : ∀ app' got, appEnsureCapacity app reallocOk = (app', true) →
      got.length ≤ app'.rbufCap - app'.rbuf.length →
        P (appDispatch handle
          { app' with rbuf := app'.rbuf ++ got, received := app'.received ++ got }, true)) :
    P (appHandleSocket handle app reallocOk r) := by
  rw [appHandleSocket]
  cases hroom : appEnsureCapacity app reallocOk with
  | mk app' go =>
    cases go with
    | false => exact full app' hroom
    | true =>
      cases r with
      | interrupted => exact interrupted app' hroom
      | failed => exact ended app' _ hroom (by simp) (by simp)
      | data bs =>
        show P (ite _ _ _)
        -- nothing received is the end of the stream: there was room
        split_ifs
        · exact ended app' _ hroom (by simp) (by simp)
        · exact received app' _ hroom (List.length_take_le _ _)

/-! ### What the loop keeps -/

/-- The property is kept by a new state behind the handlers, and by leaving the loop for another
    reason than a bad magic or the buffer limit. -/
structure LoopProperty (P : App σ → Prop) : Prop where
  withState : ∀ {app : App σ}, P app → ∀ s, P { app with state := s }
  report : ∀ {app : App σ}, P app → ∀ (reason : StopReason) (running : Bool),
    reason ≠ .protocolError → reason ≠ .bufferLimit → (running = true → app.running = true) →
      P { app with running := running, stops := app.stops ++ [reason] }

variable {P : App σ → Prop} {app : App σ}

omit handle in
theorem LoopProperty.halt (hP : LoopProperty P) (h : P app) {reason : StopReason}
    (hbad : reason ≠ .protocolError) (hlimit : reason ≠ .bufferLimit) : P (app.halt reason) :=
  hP.report h reason false hbad hlimit fun hrun => absurd hrun (by simp)

omit handle in
theorem LoopProperty.handleStdin (hP : LoopProperty P) (h : P app) (line : σ → σ × Bool) :
    P (appHandleStdin app line).1 := by
  rw [appHandleStdin]
  obtain ⟨s, go⟩ := line app.state
  cases go with
  | true => exact hP.withState h s
  | false => exact hP.halt (hP.withState h s) (by simp) (by simp)

/-- **Step rule.** An iteration of the loop keeps what `app_handle_socket` keeps. -/
theorem LoopProperty.round (hP : LoopProperty P) (h : P app)
    (hsocket : ∀ reallocOk r, P (appHandleSocket handle app reallocOk r).1)
    (poll : PollResult σ) : P (appRound handle app poll).1 := by
  cases poll with
  | interrupted => exact h
  | failed => exact hP.report h .pollFailed app.running (by simp) (by simp) id
  | timeout tick =>
    rw [appRound]
    obtain ⟨s, go⟩ := tick app.state
    have hstate : P { app with state := s } := hP.withState h s
    cases go with
    | true => exact hstate
    | false => exact hP.report hstate .sendFailed app.running (by simp) (by simp) id
  | ready socket stdin =>
    have hpolled : P (pollSocket handle app socket).1 := by
      cases socket with
      | none => exact h
      | some io => exact hsocket io.1 io.2
    rw [appRound]
    generalize pollSocket handle app socket = res at hpolled ⊢
    obtain ⟨app', go⟩ := res
    cases go with
    | false => exact hpolled
    | true =>
      cases stdin with
      | none => exact hpolled
      | some line => exact hP.handleStdin hpolled line

/-- **Run rule.** The loop keeps what its iterations keep. -/
theorem appRun_keeps {polls : List (Bool × PollResult σ)}
    (hround : ∀ app : App σ, ∀ poll ∈ polls, app.running = true → P app →
      P (appRound handle app poll.2).1) (h : P app) : P (appRun handle app polls) := by
  induction polls generalizing app with
  | nil => exact h
  | cons poll polls ih =>
    rw [appRun]
    by_cases hlive : app.running ∧ poll.1
    · rw [if_neg (not_not_intro hlive)]
      have hkept := hround app poll (by simp) hlive.1 h
      generalize appRound handle app poll.2 = res at hkept ⊢
      obtain ⟨app', go⟩ := res
      cases go with
      | true => exact ih (fun app' p hp => hround app' p (List.mem_cons_of_mem poll hp)) hkept
      | false => exact hkept
    · rw [if_pos hlive]
      exact h

/-! ### What one dispatch does -/

/-- `app'` is `app` after dispatching a buffer that drains to `d`. -/
structure Dispatched (app app' : App σ) (d : Drained UInt8 (UInt8 × Bytes)) : Prop where
  calls : app'.calls = app.calls ++ d.items
  rbufCap : app'.rbufCap = app.rbufCap
  received : app'.received = app.received
  stops : app'.stops = app.stops ++ if d.bad then [.protocolError] else []
  running : app'.running = (app.running && !d.bad)
  left : d.bad = false → app'.rbuf = d.left

omit handle in
/-- A loop that stops where the parser asks for more has delivered everything. -/
private theorem dispatched_more {app : App σ} {off : Nat}
    (hmore : protocolParse (app.rbuf.drop off) = .more) :
    Dispatched app (dispatchRest (app, some off)) (whole protocolParse (app.rbuf.drop off)) := by
  rw [whole_more hmore]
  exact ⟨by simp [dispatchRest], rfl, rfl, by simp [dispatchRest], by simp [dispatchRest],
    fun _ => rfl⟩

/-- Delivering a frame and then what follows it is delivering both. -/
private theorem Dispatched.cons {app app' : App σ} {type : UInt8} {payload rest : Bytes}
    {d : Drained UInt8 (UInt8 × Bytes)}
    (h : Dispatched (app.handleFrame handle type payload rest) app' d) :
    Dispatched app app' (d.cons (type, payload)) where
  calls := by
    rw [h.calls]
    simp [App.handleFrame, Drained.cons]
  rbufCap := h.rbufCap
  received := h.received
  stops := h.stops
  running := h.running
  left := h.left

/-- From every offset the loop delivers what the rest of the buffer drains to. -/
private theorem dispatchLoop_spec (fuel : Nat) (app : App σ) (off : Nat)
    (hfuel : app.rbuf.length - off ≤ fuel) :
    Dispatched app (dispatchRest (dispatchLoop handle fuel off app))
      (whole protocolParse (app.rbuf.drop off)) := by
  have hend : ∀ (app : App σ) (off : Nat), app.rbuf.length ≤ off →
      protocolParse (app.rbuf.drop off) = .more := by
    intro app off hle
    rw [List.drop_eq_nil_of_le hle]
    exact protocolParse_stable.nil
  induction fuel generalizing app off with
  | zero => exact dispatched_more (hend app off (by omega))
  | succ fuel ih =>
    rw [dispatchLoop]
    by_cases hoff : off < app.rbuf.length
    · rw [if_pos hoff]
      cases hv : protocolParse (app.rbuf.drop off) with
      | more => exact dispatched_more hv
      | bad =>
        rw [whole_bad protocolParse_stable hv]
        exact ⟨by simp [dispatchRest, App.halt], rfl, rfl, rfl,
          by simp [dispatchRest, App.halt], fun h => absurd h (by simp)⟩
      | item consumed frame =>
        obtain ⟨type, payload⟩ := frame
        have hpos := (protocolParse_stable.item_le hv).1
        rw [whole_item protocolParse_stable hv, List.drop_drop]
        apply Dispatched.cons handle
        exact ih _ _ (by show app.rbuf.length - _ ≤ _; omega)
    · rw [if_neg hoff]
      exact dispatched_more (hend app off (by omega))

/-- **Dispatch specification.** `app_dispatch` hands out the frames the buffer drains to and
    keeps what is left, or reports a protocol error. -/
theorem appDispatch_spec (app : App σ) :
    Dispatched app (appDispatch handle app) (whole protocolParse app.rbuf) :=
  dispatchLoop_spec handle app.rbuf.length app 0 (by omega)

/-! ### What the handler makes of the frames -/

/-- The frame is handled in every state as if nothing stood behind it. -/
def HandledAlone (frame : UInt8 × Bytes) : Prop :=
  ∀ (s : σ) (rest : Bytes), handle s frame.1 (span frame.2 rest) frame.2.length =
    handle s frame.1 (span frame.2 []) frame.2.length

/-- Hand frames to the handler one after the other, each with nothing behind it. -/
def handleAll (s : σ) (frames : List (UInt8 × Bytes)) : σ :=
  frames.foldl (fun s frame => handle s frame.1 (span frame.2 []) frame.2.length) s

private theorem dispatchLoop_state (fuel : Nat) (app : App σ) (off : Nat)
    (hfuel : app.rbuf.length - off ≤ fuel)
    (halone : ∀ frame ∈ (whole protocolParse (app.rbuf.drop off)).items,
      HandledAlone handle frame) :
    (dispatchLoop handle fuel off app).1.state =
      handleAll handle app.state (whole protocolParse (app.rbuf.drop off)).items := by
  induction fuel generalizing app off with
  | zero =>
    rw [List.drop_eq_nil_of_le (by omega), whole_more protocolParse_stable.nil]
    rfl
  | succ fuel ih =>
    rw [dispatchLoop]
    by_cases hoff : off < app.rbuf.length
    swap
    · rw [if_neg hoff, List.drop_eq_nil_of_le (by omega), whole_more protocolParse_stable.nil]
      rfl
    rw [if_pos hoff]
    cases hv : protocolParse (app.rbuf.drop off) with
    | more =>
      rw [whole_more hv]
      rfl
    | bad =>
      rw [whole_bad protocolParse_stable hv]
      rfl
    | item consumed frame =>
      obtain ⟨type, payload⟩ := frame
      have hpos := (protocolParse_stable.item_le hv).1
      rw [whole_item protocolParse_stable hv, List.drop_drop] at halone ⊢
      have hfirst := halone (type, payload) (by simp [Drained.cons])
      have hgo := ih (app.handleFrame handle type payload (app.rbuf.drop (off + consumed)))
        (off + consumed) (by show app.rbuf.length - _ ≤ _; omega)
        fun frame hmem => halone frame (List.mem_cons_of_mem _ hmem)
      calc (dispatchLoop handle fuel (off + consumed)
              (app.handleFrame handle type payload (app.rbuf.drop (off + consumed)))).1.state
          = handleAll handle (handle app.state type
              (span payload (app.rbuf.drop (off + consumed))) payload.length)
              (whole protocolParse (app.rbuf.drop (off + consumed))).items := hgo
        _ = handleAll handle (handle app.state type (span payload []) payload.length)
              (whole protocolParse (app.rbuf.drop (off + consumed))).items := by
            rw [hfirst app.state]

/-- **The state after a dispatch** is a function of the frames in the buffer, when each of them
    is handled alone. -/
theorem appDispatch_state (app : App σ)
    (halone : ∀ frame ∈ (whole protocolParse app.rbuf).items, HandledAlone handle frame) :
    (appDispatch handle app).state =
      handleAll handle app.state (whole protocolParse app.rbuf).items := by
  have hrest (res : App σ × Option Nat) : (dispatchRest res).state = res.1.state := by
    obtain ⟨app, off⟩ := res
    cases off <;> rfl
  rw [appDispatch, hrest]
  exact dispatchLoop_state handle app.rbuf.length app 0 (by omega) halone

/-! ### The event loop against the stream -/

/-- The loop invariant, for a buffer that held `before` at the start: the calls are the frames
    of the stream seen so far, the buffer is what they leave, a bad magic has been reported if
    and only if the stream contains one, and the buffer limit has not been met. -/
structure Tracks (before : Bytes) (app : App σ) : Prop where
  calls : app.calls = (whole protocolParse (before ++ app.received)).items
  bad : .protocolError ∈ app.stops ↔ (whole protocolParse (before ++ app.received)).bad = true
  noLimit : .bufferLimit ∉ app.stops
  left : app.running = true →
    (whole protocolParse (before ++ app.received)).bad = false ∧
      app.rbuf = (whole protocolParse (before ++ app.received)).left
  cap : appRbufInit ≤ app.rbufCap

variable {before : Bytes}

/-- The invariant is about the frames only. -/
theorem tracks_loopProperty : LoopProperty (Tracks (σ := σ) before) where
  withState h s := ⟨h.calls, h.bad, h.noLimit, h.left, h.cap⟩
  report h reason running hbad hlimit hrun :=
    { calls := h.calls
      bad := by
        rw [← h.bad, List.mem_append, List.mem_singleton]
        exact or_iff_left (Ne.symm hbad)
      noLimit := not_reported h.noLimit (Ne.symm hlimit)
      left := fun hr => h.left (hrun hr)
      cap := h.cap }

theorem Tracks.halt (h : Tracks before app) {reason : StopReason}
    (hbad : reason ≠ .protocolError) (hlimit : reason ≠ .bufferLimit) :
    Tracks before (app.halt reason) :=
  tracks_loopProperty.halt h hbad hlimit

/-- **Capacity.** Making room never meets the buffer limit: what waits in the buffer is shorter
    than a frame. -/
theorem Tracks.ensureCapacity (h : Tracks before app) (hrun : app.running = true)
    (reallocOk : Bool) : Tracks before (appEnsureCapacity app reallocOk).1 ∧
      (appEnsureCapacity app reallocOk).1.running = (appEnsureCapacity app reallocOk).2 := by
  -- the buffer holds an incomplete frame, so it is shorter than the first allocation
  obtain ⟨hgood, hleft⟩ := h.left hrun
  have hmore := more_of_whole protocolParse_stable hgood
  rw [← hleft] at hmore
  have hlen := length_lt_of_more hmore
  have hcap := h.cap
  unfold appEnsureCapacity
  by_cases hroom : app.rbuf.length < app.rbufCap
  · rw [if_pos hroom]
    exact ⟨h, hrun⟩
  rw [if_neg hroom, if_neg (by simp only [appRbufMax]; omega)]
  cases reallocOk with
  | false => exact ⟨h.halt (by simp) (by simp), rfl⟩
  | true =>
    refine ⟨⟨h.calls, h.bad, h.noLimit, h.left, ?_⟩, hrun⟩
    show appRbufInit ≤ app.rbufCap * 2
    omega

/-- **Socket step.** Receiving a piece and dispatching keeps the invariant, by
    `Feed.whole_append`. -/
theorem Tracks.receive (h : Tracks before app) (hrun : app.running = true) (got : Bytes) :
    Tracks before (appDispatch handle
      { app with rbuf := app.rbuf ++ got, received := app.received ++ got }) := by
  obtain ⟨hgood, hleft⟩ := h.left hrun
  have hd := appDispatch_spec handle
    { app with rbuf := app.rbuf ++ got, received := app.received ++ got }
  obtain ⟨hitems, hbad, hrest⟩ :=
    whole_append protocolParse_stable (before ++ app.received) got
  rw [hgood, if_neg (by simp), ← hleft] at hitems
  rw [hgood, Bool.false_or, ← hleft] at hbad
  have hstream : before ++ (app.received ++ got) = before ++ app.received ++ got :=
    (List.append_assoc _ _ _).symm
  -- still running, so no bad magic before this piece
  have hnone : .protocolError ∉ app.stops := by
    rw [h.bad, hgood]
    simp
  constructor
  · rw [hd.calls, hd.received, hstream, hitems, ← h.calls]
  · rw [hd.stops, hd.received, hstream, hbad]
    cases (whole protocolParse (app.rbuf ++ got)).bad <;> simp [hnone]
  · rw [hd.stops]
    cases (whole protocolParse (app.rbuf ++ got)).bad <;> simp [h.noLimit]
  · intro hrun'
    rw [hd.running] at hrun'
    have hok : (whole protocolParse (app.rbuf ++ got)).bad = false := by
      simpa [hrun] using hrun'
    rw [hd.received, hstream, hbad, hrest hgood, ← hleft]
    exact ⟨hok, hd.left hok⟩
  · rw [hd.rbufCap]
    exact h.cap

theorem Tracks.handleSocket (h : Tracks before app) (hrun : app.running = true)
    (reallocOk : Bool) (r : RecvResult) :
    Tracks before (appHandleSocket handle app reallocOk r).1 := by
  have hcap := h.ensureCapacity hrun reallocOk
  apply appHandleSocket_cases handle (P := fun res => Tracks before res.1)
  case full =>
    intro app' hroom
    rw [hroom] at hcap
    exact hcap.1
  case interrupted =>
    intro app' hroom
    rw [hroom] at hcap
    exact hcap.1
  case ended =>
    intro app' reason hroom hbad hlimit
    rw [hroom] at hcap
    exact hcap.1.halt hbad hlimit
  case received =>
    intro app' got hroom hfits
    rw [hroom] at hcap
    exact hcap.1.receive handle hcap.2 got

/-- **Step lemma.** Every iteration of the loop keeps the invariant. -/
theorem Tracks.round (h : Tracks before app) (hrun : app.running = true) (poll : PollResult σ) :
    Tracks before (appRound handle app poll).1 :=
  tracks_loopProperty.round handle h (h.handleSocket handle hrun) poll

/-- **Run lemma.** So does every run. -/
theorem Tracks.run (h : Tracks before app) (polls : List (Bool × PollResult σ)) :
    Tracks before (appRun handle app polls) :=
  appRun_keeps handle (fun _ poll _ hrun h => h.round handle hrun poll.2) h

omit handle in
/-- The loop starts behind a buffer that asks for more. -/
theorem Tracks.start {rbuf : Bytes} {rbufCap : Nat} (hmore : protocolParse rbuf = .more)
    (hcap : appRbufInit ≤ rbufCap) (s : σ) : Tracks rbuf (App.start rbuf rbufCap s) := by
  have hwhole : whole protocolParse (rbuf ++ []) = ⟨[], rbuf, false⟩ := by
    rw [List.append_nil]
    exact whole_more hmore
  constructor
  · show [] = (whole protocolParse (rbuf ++ [])).items
    rw [hwhole]
  · show StopReason.protocolError ∈ [] ↔ (whole protocolParse (rbuf ++ [])).bad = true
    rw [hwhole]
    simp
  · show StopReason.bufferLimit ∉ []
    simp
  · intro _
    show (whole protocolParse (rbuf ++ [])).bad = false ∧
      rbuf = (whole protocolParse (rbuf ++ [])).left
    rw [hwhole]
    exact ⟨rfl, rfl⟩
  · exact hcap

/-- **Segmentation independence.** However the stream is cut into pieces, and whatever happens
    between them, the frames passed to `app_handle_frame` are those of the stream parsed as a
    whole, and the client reports a protocol error if and only if the stream contains a bad
    magic; it never runs into its buffer limit. -/
theorem appRun_segmentation (rbuf : Bytes) (rbufCap : Nat) (s : σ)
    (hmore : protocolParse rbuf = .more) (hcap : appRbufInit ≤ rbufCap)
    (polls : List (Bool × PollResult σ)) :
    let app := appRun handle (App.start rbuf rbufCap s) polls
    let d := whole protocolParse (rbuf ++ app.received)
    app.calls = d.items ∧ (.protocolError ∈ app.stops ↔ d.bad = true) ∧
      (d.bad = true → app.running = false) ∧ .bufferLimit ∉ app.stops := by
  intro app d
  have h : Tracks rbuf app := (Tracks.start hmore hcap s).run handle polls
  refine ⟨h.calls, h.bad, fun hbad => ?_, h.noLimit⟩
  cases hrun : app.running with
  | false => rfl
  | true => exact absurd hbad (by simp [d, (h.left hrun).1])

/-- A chat line that arrives in two pieces, through a handler that counts. -/
theorem appRun_segmentation_pieces :
    let handle : Handler Nat := fun n _ _ _ => n + 1
    let piece (bs : Bytes) : Bool × PollResult Nat := (true, .ready (some (true, .data bs)) none)
    let app := appRun handle (App.start [] appRbufInit 0)
      [piece [0xCA, 0xFE, 0x02], piece [0, 1, 0]]
    app.calls = [(msgChat, [0])] ∧ app.state = 1 ∧
      app.calls = (whole protocolParse ([] ++ app.received)).items :=
  ⟨by decide, by decide,
    (appRun_segmentation (fun n _ _ _ => n + 1) [] appRbufInit (0 : Nat) rfl (le_refl _) _).1⟩

end Loop
end TCPClient
