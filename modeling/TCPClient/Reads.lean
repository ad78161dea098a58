import TCPClient.Session

namespace TCPClient

open Feed

/-!
# What the event loop reads

`roundReads` are the calls of `recv` and `fgets` that an iteration of `app_run` makes.  Two
questions about them: whether `recv` is always given room (`read_buffer_capacity`), and whether
every iteration behind a `poll` that reported something makes such a call (`round_progress_iff`).
-/

/-- A call that takes bytes from a descriptor; `recv` with the size it is called with. -/
inductive ReadCall where
  | recv (size : Nat)
  | fgets
  deriving DecidableEq, Repr

section Loop

variable {σ : Type} (handle : Handler σ)

/-- The `recv` of `app_handle_socket`. -/
def socketReads (app : App σ) (reallocOk : Bool) : List ReadCall :=
  match appEnsureCapacity app reallocOk with
  | (_, false) => []
  | (app, true) => [.recv (app.rbufCap - app.rbuf.length)]

/-- The calls behind the first `revents` test. -/
def pollReads (app : App σ) : Option (Bool × RecvResult) → List ReadCall
  | none => []
  | some (reallocOk, _) => socketReads app reallocOk

/-- The calls of one iteration: standard input comes behind the socket, unless the loop was
    left there. -/
def roundReads (app : App σ) : PollResult σ → List ReadCall
  | .ready socket stdin =>
    pollReads app socket ++
      if (pollSocket handle app socket).2 ∧ stdin.isSome then [.fgets] else []
  | _ => []

/-- The calls of a run. -/
def appRunReads : App σ → List (Bool × PollResult σ) → List ReadCall
  | _, [] => []
  | app, (gRunning, poll) :: polls =>
    if ¬ (app.running ∧ gRunning) then []
    else
      roundReads handle app poll ++
        match appRound handle app poll with
        | (app', true) => appRunReads app' polls
        | (_, false) => []

/-! ### Every reported descriptor is read, or none -/

/-- The bits of `revents` that are reported without being asked for, next to `POLLIN`. -/
structure Revents where
  pollin : Bool
  pollhup : Bool
  pollerr : Bool
  deriving DecidableEq, Repr

def Revents.reported (r : Revents) : Prop := r.pollin = true ∨ r.pollhup = true ∨ r.pollerr = true

/-- What `app_run` makes of a positive result of `poll`: it tests for `POLLIN` only. -/
def pollReady (socket stdin : Revents) (io : Bool × RecvResult) (line : σ → σ × Bool) :
    PollResult σ :=
  .ready (if socket.pollin then some io else none) (if stdin.pollin then some line else none)

/-- The iteration takes bytes from a descriptor that was reported, or it is the last one. -/
def Progresses (app : App σ) (socket stdin : Revents) (io : Bool × RecvResult)
    (line : σ → σ × Bool) : Prop :=
  (socket.reported ∧ ∃ size, .recv size ∈ roundReads handle app (pollReady socket stdin io line)) ∨
    (stdin.reported ∧ .fgets ∈ roundReads handle app (pollReady socket stdin io line)) ∨
    (appRound handle app (pollReady socket stdin io line)).2 = false

/-- Without `POLLIN` nothing is read, nothing changes, and the loop goes on. -/
theorem round_idle (app : App σ) {socket stdin : Revents} (hsocket : socket.pollin = false)
    (hstdin : stdin.pollin = false) (io : Bool × RecvResult) (line : σ → σ × Bool) :
    roundReads handle app (pollReady socket stdin io line) = [] ∧
      appRound handle app (pollReady socket stdin io line) = (app, true) := by
  rw [pollReady, hsocket, hstdin]
  exact ⟨rfl, rfl⟩

/-- So the same `poll` may answer the same for ever, and no other branch is ever reached. -/
theorem run_idle (app : App σ) {socket stdin : Revents} (hsocket : socket.pollin = false)
    (hstdin : stdin.pollin = false) (io : Bool × RecvResult) (line : σ → σ × Bool) (n : Nat) :
    appRun handle app (List.replicate n (true, pollReady socket stdin io line)) = app := by
  induction n with
  | zero => rfl
  | succ n ih =>
    rw [List.replicate_succ, appRun]
    split_ifs
    · rw [(round_idle handle app hsocket hstdin io line).2]
      exact ih
    · rfl

/-- **Progress**: an iteration behind a `poll` that reported something reads or leaves the loop
    exactly when `POLLIN` is among the bits that were reported. -/
theorem round_progress_iff (app : App σ) (socket stdin : Revents) (io : Bool × RecvResult)
    (line : σ → σ × Bool) :
    Progresses handle app socket stdin io line ↔
      socket.pollin = true ∨ stdin.pollin = true := by
  constructor
  · intro hprogress
    by_contra hnone
    obtain ⟨hsocket, hstdin⟩ := not_or.mp hnone
    obtain ⟨hreads, hround⟩ := round_idle handle app (Bool.eq_false_iff.mpr hsocket)
      (Bool.eq_false_iff.mpr hstdin) io line
    unfold Progresses at hprogress
    rw [hreads, hround] at hprogress
    rcases hprogress with ⟨-, size, hmem⟩ | ⟨-, hmem⟩ | hleft
    · exact absurd hmem (by simp)
    · exact absurd hmem (by simp)
    · exact absurd hleft (by simp)
  · intro hpollin
    by_cases hsocket : socket.pollin = true
    · obtain ⟨reallocOk, r⟩ := io
      rw [Progresses, pollReady, if_pos hsocket]
      cases hroom : appEnsureCapacity app reallocOk with
      | mk app' go =>
      cases go with
      | true =>
        refine Or.inl ⟨Or.inl hsocket, app'.rbufCap - app'.rbuf.length, ?_⟩
        apply List.mem_append_left
        show _ ∈ socketReads app reallocOk
        rw [socketReads, hroom]
        exact List.mem_singleton.mpr rfl
      | false =>
        -- no room can be made, and the loop is left
        have hleft : appHandleSocket handle app reallocOk r = (app', false) := by
          rw [appHandleSocket, hroom]
        refine Or.inr (Or.inr ?_)
        rw [appRound, pollSocket, hleft]
    · have hstdin := hpollin.resolve_left hsocket
      rw [Progresses, pollReady, if_neg hsocket, if_pos hstdin]
      refine Or.inr (Or.inl ⟨Or.inl hstdin, ?_⟩)
      show ReadCall.fgets ∈ [] ++ if (app, true).2 ∧ (some line).isSome then [.fgets] else []
      exact List.mem_singleton.mpr rfl

/-! ### Room in the read buffer -/

/-- The largest frame without its last byte. -/
def frameRemainder : Nat := 5 + 65535 - 1

/-- What the event loop keeps, from a capacity `c` at its start: as long as no bad magic was met
    the buffer holds less than a frame, and the capacity was doubled at most once. -/
structure Roomy (c : Nat) (app : App σ) : Prop where
  left : .protocolError ∉ app.stops → app.rbuf.length ≤ frameRemainder ∧
    app.rbuf.length ≤ app.rbufCap
  bad : .protocolError ∈ app.stops → app.running = false
  noLimit : .bufferLimit ∉ app.stops
  cap : app.rbufCap = c ∨ app.rbufCap = 2 * c ∧ c = appRbufInit
  start : c = appRbufInit ∨ c = 2 * appRbufInit

variable {c : Nat} {app : App σ}

/-- Neither the state behind the handlers nor leaving the loop for a reason that is neither a bad
    magic nor the limit of the buffer matters. -/
theorem roomy_loopProperty : LoopProperty (Roomy (σ := σ) c) where
  withState h s := ⟨h.left, h.bad, h.noLimit, h.cap, h.start⟩
  report h reason running hbad hlimit hrun :=
    { left := fun hnone => h.left fun hmem => hnone (List.mem_append_left _ hmem)
      bad := by
        intro hmem
        rcases List.mem_append.mp hmem with hmem | hmem
        · by_contra hlive
          rw [Bool.not_eq_false] at hlive
          exact absurd (h.bad hmem) (by simp [hrun hlive])
        · exact absurd (List.mem_singleton.mp hmem) (Ne.symm hbad)
      noLimit := not_reported h.noLimit (Ne.symm hlimit)
      cap := h.cap
      start := h.start }

theorem Roomy.halt (h : Roomy c app) {reason : StopReason} (hbad : reason ≠ .protocolError)
    (hlimit : reason ≠ .bufferLimit) : Roomy c (app.halt reason) :=
  roomy_loopProperty.halt h hbad hlimit

/-- **Making room** in a loop that goes on: the buffer is doubled when it is full, which it can
    be at its first size only, and then there is room. -/
theorem Roomy.ensureCapacity (h : Roomy c app) (hrun : app.running = true) (reallocOk : Bool) :
    Roomy c (appEnsureCapacity app reallocOk).1 ∧
      ((appEnsureCapacity app reallocOk).2 = true →
        (appEnsureCapacity app reallocOk).1.running = true ∧
          (appEnsureCapacity app reallocOk).1.rbuf.length <
            (appEnsureCapacity app reallocOk).1.rbufCap) := by
  have hgood : .protocolError ∉ app.stops := fun hmem => absurd (h.bad hmem) (by simp [hrun])
  obtain ⟨hlen, hfits⟩ := h.left hgood
  have hcap := h.cap
  have hstart := h.start
  simp only [frameRemainder, appRbufInit] at hlen hcap hstart
  unfold appEnsureCapacity
  by_cases hroom : app.rbuf.length < app.rbufCap
  · rw [if_pos hroom]
    exact ⟨h, fun _ => ⟨hrun, hroom⟩⟩
  -- a full buffer of the second size would hold more than is ever left
  have hfirst : app.rbufCap = c ∧ c = 64 * 1024 := by omega
  rw [if_neg hroom, if_neg (by simp only [appRbufMax]; omega)]
  cases reallocOk with
  | false => exact ⟨h.halt (by simp) (by simp), fun hgo => absurd hgo (by simp)⟩
  | true =>
    refine ⟨⟨fun _ => ⟨hlen, ?_⟩, h.bad, h.noLimit, Or.inr ⟨?_, hfirst.2⟩, h.start⟩,
      fun _ => ⟨hrun, ?_⟩⟩
    · show app.rbuf.length ≤ app.rbufCap * 2
      omega
    · show app.rbufCap * 2 = 2 * c
      omega
    · show app.rbuf.length < app.rbufCap * 2
      omega

/-- **Dispatching** what fits the buffer: less than a frame is left of it. -/
theorem roomy_appDispatch (hgood : .protocolError ∉ app.stops) (hlimit : .bufferLimit ∉ app.stops)
    (hfits : app.rbuf.length ≤ app.rbufCap)
    (hcap : app.rbufCap = c ∨ app.rbufCap = 2 * c ∧ c = appRbufInit)
    (hstart : c = appRbufInit ∨ c = 2 * appRbufInit) : Roomy c (appDispatch handle app) := by
  have hd := appDispatch_spec handle app
  cases hok : (whole protocolParse app.rbuf).bad with
  | true =>
    have hstops : (appDispatch handle app).stops = app.stops ++ [.protocolError] := by
      rw [hd.stops, hok, if_pos rfl]
    refine ⟨fun hnone => absurd ?_ hnone, fun _ => ?_, ?_, ?_, hstart⟩
    · rw [hstops]
      exact List.mem_append_right _ (List.mem_singleton.mpr rfl)
    · rw [hd.running, hok]
      exact Bool.and_false _
    · rw [hstops]
      exact not_reported hlimit (by simp)
    · rw [hd.rbufCap]
      exact hcap
  | false =>
    have hstops : (appDispatch handle app).stops = app.stops := by
      rw [hd.stops, hok]
      exact List.append_nil _
    refine ⟨fun _ => ?_, fun hmem => absurd (hstops ▸ hmem) hgood, ?_, ?_, hstart⟩
    · rw [hd.rbufCap, hd.left hok]
      have hless := length_lt_of_more (more_of_whole protocolParse_stable hok)
      have hsuffix := (left_suffix protocolParse_stable app.rbuf).length_le
      exact ⟨by simp only [frameRemainder]; omega, by omega⟩
    · rw [hstops]
      exact hlimit
    · rw [hd.rbufCap]
      exact hcap

/-- What an iteration keeps, and what it calls `recv` with. -/
def RoomyRound (c : Nat) (app : App σ) (reads : List ReadCall) : Prop :=
  Roomy c app ∧ ∀ size, .recv size ∈ reads → 0 < size

theorem Roomy.quiet (h : Roomy c app) : RoomyRound c app [] :=
  ⟨h, fun _ hmem => absurd hmem List.not_mem_nil⟩

theorem Roomy.handleSocket (h : Roomy c app) (hrun : app.running = true) (reallocOk : Bool)
    (r : RecvResult) :
    RoomyRound c (appHandleSocket handle app reallocOk r).1 (socketReads app reallocOk) := by
  have hcap := h.ensureCapacity hrun reallocOk
  constructor
  · apply appHandleSocket_cases handle (P := fun res => Roomy c res.1)
    case full =>
      intro app' hroom
      rw [hroom] at hcap
      exact hcap.1
    case interrupted =>
      intro app' hroom
      rw [hroom] at hcap
      exact hcap.1
    case ended =>
      intro app' reason hroom hbad hlimit
      rw [hroom] at hcap
      exact hcap.1.halt hbad hlimit
    case received =>
      -- `recv` fills at most the free part
      intro app' got hroom hfits
      rw [hroom] at hcap
      obtain ⟨hroomy, hgo⟩ := hcap
      obtain ⟨hrun', hfree⟩ := hgo rfl
      have hgood : .protocolError ∉ app'.stops := fun hmem =>
        absurd ((hroomy.bad hmem).symm.trans hrun') (by simp)
      refine roomy_appDispatch handle hgood hroomy.noLimit ?_ hroomy.cap hroomy.start
      show (app'.rbuf ++ got).length ≤ app'.rbufCap
      rw [List.length_append]
      dsimp only at hfree
      omega
  · intro size hmem
    rw [socketReads] at hmem
    generalize appEnsureCapacity app reallocOk = res at hcap hmem
    obtain ⟨app', go⟩ := res
    cases go with
    | false => exact absurd hmem List.not_mem_nil
    | true =>
      have hfree := (hcap.2 rfl).2
      rw [List.mem_singleton, ReadCall.recv.injEq] at hmem
      dsimp only at hfree
      omega

/-- **Step lemma.** -/
theorem Roomy.round (h : Roomy c app) (hrun : app.running = true) (poll : PollResult σ) :
    RoomyRound c (appRound handle app poll).1 (roundReads handle app poll) := by
  refine ⟨roomy_loopProperty.round handle h (fun reallocOk r =>
    (h.handleSocket handle hrun reallocOk r).1) poll, fun size hmem => ?_⟩
  cases poll with
  | interrupted => exact absurd hmem (by simp [roundReads])
  | failed => exact absurd hmem (by simp [roundReads])
  | timeout tick => exact absurd hmem (by simp [roundReads])
  | ready socket stdin =>
    rw [roundReads] at hmem
    rcases List.mem_append.mp hmem with hmem | hmem
    · cases socket with
      | none => exact absurd hmem (by simp [pollReads])
      | some io => exact (h.handleSocket handle hrun io.1 io.2).2 size hmem
    · split_ifs at hmem
      · exact absurd (List.mem_singleton.mp hmem) (by simp)
      · exact absurd hmem (by simp)

/-- **Run lemma.** -/
theorem Roomy.run (h : Roomy c app) (polls : List (Bool × PollResult σ)) :
    RoomyRound c (appRun handle app polls) (appRunReads handle app polls) := by
  induction polls generalizing app with
  | nil => exact h.quiet
  | cons poll polls ih =>
    rw [appRun, appRunReads]
    by_cases hlive : app.running ∧ poll.1
    · rw [if_neg (not_not_intro hlive), if_neg (not_not_intro hlive)]
      obtain ⟨hkept, hsizes⟩ := h.round handle hlive.1 poll.2
      generalize appRound handle app poll.2 = res at hkept ⊢
      obtain ⟨app', go⟩ := res
      cases go with
      | false =>
        refine ⟨hkept, fun size hmem => hsizes size ?_⟩
        simpa using hmem
      | true =>
        obtain ⟨hrest, hlater⟩ := ih hkept
        refine ⟨hrest, fun size hmem => ?_⟩
        exact (List.mem_append.mp hmem).elim (hsizes size) (hlater size)
    · rw [if_pos hlive, if_pos hlive]
      exact h.quiet

/-- A piece for which there is room: the buffer keeps what stands behind its last frame. -/
theorem appRound_piece (cap : Nat) {bs left : Bytes} {frames : List (UInt8 × Bytes)}
    (hroom : appEnsureCapacity app true = ({ app with rbufCap := cap }, true))
    (hne : bs ≠ []) (hfits : bs.length ≤ cap - app.rbuf.length)
    (hwhole : whole protocolParse (app.rbuf ++ bs) = ⟨frames, left, false⟩) :
    ∃ app', appRound handle app (socketPoll bs).2 = (app', true) ∧
      roundReads handle app (socketPoll bs).2 = [.recv (cap - app.rbuf.length)] ∧
      app'.rbuf = left ∧ app'.rbufCap = cap ∧ app'.running = app.running := by
  refine ⟨appDispatch handle { app with
    rbuf := app.rbuf ++ bs, rbufCap := cap, received := app.received ++ bs }, ?_, ?_, ?_⟩
  · rw [socketPoll, appRound, pollSocket, appHandleSocket, hroom]
    dsimp only
    rw [List.take_of_length_le hfits, if_neg hne]
    rfl
  · rw [socketPoll, roundReads, pollReads, socketReads, hroom]
    simp
  · have hd := appDispatch_spec handle { app with
      rbuf := app.rbuf ++ bs, rbufCap := cap, received := app.received ++ bs }
    dsimp only at hd
    rw [hwhole] at hd
    exact ⟨hd.left rfl, hd.rbufCap, by simpa using hd.running⟩

/-- **A largest frame** fills the first allocation, and its last bytes go into new room: the buffer
    is doubled, and empty again behind the frame. -/
theorem largest_frame (hrun : app.running = true) (hempty : app.rbuf = [])
    (hcap : app.rbufCap = appRbufInit) {f : Frame} (hlong : f.payload.length = 65535) :
    let polls := [socketPoll (f.encode.take appRbufInit), socketPoll (f.encode.drop appRbufInit)]
    appRunReads handle app polls = [.recv appRbufInit, .recv appRbufInit] ∧
      (appRun handle app polls).rbufCap = 2 * appRbufInit ∧
      (appRun handle app polls).rbuf = [] := by
  have hlen : f.encode.length = 65540 := by rw [Frame.length_encode, hlong]
  have htake : (f.encode.take appRbufInit).length = appRbufInit := by
    rw [List.length_take, hlen]
    rfl
  have hdrop : (f.encode.drop appRbufInit).length = 4 := by
    rw [List.length_drop, hlen]
    rfl
  -- the first piece fills the buffer and is no frame yet
  have hpart : whole protocolParse (app.rbuf ++ f.encode.take appRbufInit) =
      ⟨[], f.encode.take appRbufInit, false⟩ := by
    rw [hempty, List.nil_append]
    exact whole_more (protocolParse_take_encode f (by rw [hlen]; decide))
  obtain ⟨app₁, hround, hreads, hrbuf, hcap₁, hrun₁⟩ := appRound_piece handle appRbufInit
    (by rw [appEnsureCapacity, if_pos (by rw [hempty, hcap]; decide), ← hcap])
    (List.ne_nil_of_length_pos (by rw [htake]; decide)) (by rw [hempty, htake]; exact le_rfl) hpart
  -- the second finds no room, and completes the frame
  have hframe : whole protocolParse (app₁.rbuf ++ f.encode.drop appRbufInit) =
      ⟨[(f.type, f.payload)], [], false⟩ := by
    rw [hrbuf, List.take_append_drop, ← List.append_nil f.encode,
      whole_item protocolParse_stable (protocolParse_encode f []), ← Frame.length_encode,
      List.drop_left, whole_more protocolParse_stable.nil]
    rfl
  obtain ⟨app₂, hround₂, hreads₂, hrbuf₂, hcap₂, -⟩ :=
    appRound_piece handle (appRbufInit * 2)
      (by rw [appEnsureCapacity, if_neg (by rw [hrbuf, htake, hcap₁]; decide),
            if_neg (by rw [hcap₁]; decide), if_neg (by simp), hcap₁])
      (List.ne_nil_of_length_pos (by rw [hdrop]; decide))
      (by rw [hrbuf, htake, hdrop]; decide) hframe
  intro polls
  have hpolls : polls = [(true, (socketPoll (f.encode.take appRbufInit)).2),
    (true, (socketPoll (f.encode.drop appRbufInit)).2)] := rfl
  rw [hpolls, appRunReads, appRun, if_neg (by simp [hrun]), if_neg (by simp [hrun]), hround, hreads]
  dsimp only
  rw [appRunReads, appRun, if_neg (by simp [hrun, hrun₁]), if_neg (by simp [hrun, hrun₁]), hround₂,
    hreads₂, hempty, hrbuf, htake]
  exact ⟨rfl, hcap₂, hrbuf₂⟩

end Loop

/-! ### The buffer of the login -/

namespace Session

section Login

variable {σ : Type} (client : Handlers σ)

/-- The buffer between two batches of the login: there is room in it, or it can be doubled. -/
structure LoginRoom (app : App σ) : Prop where
  fits : app.rbuf.length < app.rbufCap ∨
    app.rbuf.length = app.rbufCap ∧ app.rbuf.length ≤ frameRemainder
  cap : app.rbufCap = appRbufInit ∨ app.rbufCap = 2 * appRbufInit
  stops : .protocolError ∉ app.stops ∧ .bufferLimit ∉ app.stops

/-- The buffer of a session: that of the login, or that of the loop from its present capacity
    on. -/
def RoomInv (s : Session σ) : Prop :=
  match s.phase with
  | .prompting | .waiting => LoginRoom s.app
  | .running => Roomy s.app.rbufCap s.app
  | .stopped => True

omit client in
theorem rebase {c : Nat} {app : App σ} (h : Roomy c app) : Roomy app.rbufCap app where
  left := h.left
  bad := h.bad
  noLimit := h.noLimit
  cap := Or.inl rfl
  start := by
    have hcap := h.cap
    have hstart := h.start
    omega

omit client in
theorem LoginRoom.ensureCapacity {app app' : App σ} (h : LoginRoom app) {reallocOk : Bool}
    (hroom : appEnsureCapacity app reallocOk = (app', true)) :
    app'.rbuf.length < app'.rbufCap ∧
      (app'.rbufCap = appRbufInit ∨ app'.rbufCap = 2 * appRbufInit) ∧
      app'.stops = app.stops := by
  have hfits := h.fits
  have hcap := h.cap
  simp only [frameRemainder, appRbufInit] at hfits hcap ⊢
  unfold appEnsureCapacity at hroom
  split_ifs at hroom with hfree hmax hrealloc
  · obtain rfl := (Prod.mk.inj hroom).1
    exact ⟨hfree, hcap, rfl⟩
  · exact absurd (Prod.mk.inj hroom).2 (by simp)
  · -- a buffer that is full is of the first size
    obtain rfl := (Prod.mk.inj hroom).1
    refine ⟨?_, Or.inr ?_, rfl⟩
    · show app.rbuf.length < app.rbufCap * 2
      omega
    · show app.rbufCap * 2 = _
      omega
  · exact absurd (Prod.mk.inj hroom).2 (by simp)

/-- The parse loop leaves the capacity alone, and reports nothing unless it ends the session. -/
theorem loginParse_keeps (fuel off : Nat) (app : App σ) :
    (loginParse client fuel off app).1.rbufCap = app.rbufCap ∧
      ((loginParse client fuel off app).2 ≠ none →
        (loginParse client fuel off app).1.stops = app.stops) := by
  induction fuel generalizing off app with
  | zero => exact ⟨rfl, fun _ => rfl⟩
  | succ fuel ih =>
    rw [loginParse]
    split_ifs
    · cases protocolParse (app.rbuf.drop off) with
      | more => exact ⟨rfl, fun _ => rfl⟩
      | bad => exact ⟨rfl, fun hne => absurd rfl hne⟩
      | item consumed frame =>
        dsimp only
        split_ifs
        · exact ih (off + consumed)
            (app.loginFrame client frame.1 frame.2 (app.rbuf.drop (off + consumed)))
        · exact ⟨rfl, fun _ => rfl⟩
    · exact ⟨rfl, fun _ => rfl⟩

omit client in
/-- The frame that decides the login is gone from the buffer. -/
theorem DecidedBy.length_lt {outcome : World.LoginOutcome} {buf rest : Bytes}
    (h : DecidedBy outcome buf rest) : rest.length < buf.length := by
  obtain ⟨skipped, last, -, -, rfl⟩ := h
  rw [List.length_append, List.length_append, Frame.length_encode]
  omega

theorem roomInv_loginBatch {app : App σ} (hfits : app.rbuf.length ≤ app.rbufCap)
    (hcap : app.rbufCap = appRbufInit ∨ app.rbufCap = 2 * appRbufInit)
    (hstops : .protocolError ∉ app.stops ∧ .bufferLimit ∉ app.stops) :
    RoomInv (loginBatch client app) := by
  rw [loginBatch]
  have hkeeps := loginParse_keeps client app.rbuf.length 0 app
  cases hres : loginParse client app.rbuf.length 0 app with
  | mk app' stop =>
    rw [hres] at hkeeps
    cases stop with
    | none => trivial
    | some stop =>
      obtain ⟨off, outcome⟩ := stop
      obtain ⟨hcap', hstops'⟩ := hkeeps
      replace hcap' : app'.rbufCap = app.rbufCap := hcap'
      replace hstops' : app'.stops = app.stops := hstops' (by simp)
      obtain ⟨hbuf, hmore, hdec⟩ := loginParse_spec client _ 0 app (by omega) hres
      rw [← hcap', ← hbuf] at hfits
      rw [← hcap'] at hcap
      rw [← hstops'] at hstops
      have hdrop : (app'.rbuf.drop off).length ≤ app'.rbuf.length := by
        rw [List.length_drop]
        omega
      cases outcome with
      | waiting =>
        have hless := length_lt_of_more (hmore rfl)
        rw [← hbuf] at hless
        refine ⟨?_, hcap, hstops⟩
        show (app'.rbuf.drop off).length < app'.rbufCap ∨
          (app'.rbuf.drop off).length = app'.rbufCap ∧ (app'.rbuf.drop off).length ≤ 65539
        omega
      | retry =>
        have hgone := (hdec (by simp)).length_lt
        rw [← hbuf, List.drop_zero] at hgone
        refine ⟨Or.inl ?_, hcap, hstops⟩
        show (app'.rbuf.drop off).length < app'.rbufCap
        omega
      | loggedIn =>
        have hroomy : Roomy app'.rbufCap
            (appDispatch client.frame { app' with rbuf := app'.rbuf.drop off }) :=
          roomy_appDispatch client.frame hstops.1 hstops.2
            (by show (app'.rbuf.drop off).length ≤ app'.rbufCap; omega) (Or.inl rfl) hcap
        exact rebase (roomy_loopProperty.withState hroomy _)

theorem roomInv_loginPoll {app : App σ} (h : LoginRoom app) (gRunning : Bool)
    (result : PollResult σ) : RoomInv (loginPoll client app gRunning result) := by
  apply loginPoll_cases (P := fun polled => RoomInv (polled client))
  case waits => exact h
  case stops => exact fun app' _ => trivial
  case receives =>
    rintro reallocOk bs stdin app' - hroom
    obtain ⟨hfree, hcap, hstops⟩ := h.ensureCapacity hroom
    refine roomInv_loginBatch client ?_ hcap ?_
    · show (app'.rbuf ++ bs.take (app'.rbufCap - app'.rbuf.length)).length ≤ _
      rw [List.length_append, List.length_take]
      show _ ≤ app'.rbufCap
      omega
    · show .protocolError ∉ app'.stops ∧ .bufferLimit ∉ app'.stops
      rw [hstops]
      exact h.stops

/-- **Step lemma.** -/
theorem roomInv_step (s : Session σ) (e : SessionEvent σ) (hs : RoomInv s) :
    RoomInv (s.step client e) := by
  obtain ⟨app, phase⟩ := s
  cases e with
  | credentials login =>
    cases phase with
    | prompting =>
      rw [step]
      obtain ⟨state, ok⟩ := login app.state
      cases ok with
      | true => exact ⟨hs.fits, hs.cap, hs.stops⟩
      | false => trivial
    | _ => exact hs
  | poll gRunning result =>
    cases phase with
    | waiting => exact roomInv_loginPoll client hs gRunning result
    | running =>
      by_cases hlive : app.running ∧ gRunning
      · rw [step_live client hlive]
        have hround := (Roomy.round client.frame hs hlive.1 result).1
        generalize appRound client.frame app result = res at hround ⊢
        obtain ⟨app', go⟩ := res
        cases go with
        | true => exact rebase hround
        | false => trivial
      · rw [step_over client hlive]
        trivial
    | _ => exact hs

theorem roomInv_run (state : σ) (events : List (SessionEvent σ)) :
    RoomInv ((connect state).run client events) := by
  have hrun : ∀ s : Session σ, RoomInv s → RoomInv (s.run client events) := by
    induction events with
    | nil => exact fun _ hs => hs
    | cons e events ih => exact fun s hs => ih (s.step client e) (roomInv_step client s e hs)
  refine hrun _ ⟨Or.inl ?_, Or.inl rfl, List.not_mem_nil, List.not_mem_nil⟩
  show 0 < 64 * 1024
  decide

/-- **Read-buffer capacity.**  Behind a login that succeeded, whatever the stream and its pieces:
    less than a frame is left of a buffer without a bad magic, every `recv` has room, the buffer
    is doubled at most once, and its limit is never met. -/
theorem read_buffer_capacity (state : σ) (login : List (SessionEvent σ))
    (hentry : ((connect state).run client login).phase = .running)
    (polls : List (Bool × PollResult σ)) :
    let entry := ((connect state).run client login).app
    let app := appRun client.frame entry polls
    (.protocolError ∉ app.stops → app.rbuf.length ≤ 65539) ∧
      (∀ size, .recv size ∈ appRunReads client.frame entry polls → 0 < size) ∧
      (app.rbufCap = entry.rbufCap ∨ app.rbufCap = 2 * entry.rbufCap) ∧
      .bufferLimit ∉ app.stops := by
  intro entry app
  have hinv := roomInv_run client state login
  unfold RoomInv at hinv
  rw [hentry] at hinv
  obtain ⟨hroomy, hsizes⟩ := Roomy.run client.frame hinv polls
  exact ⟨fun hgood => (hroomy.left hgood).1, hsizes, hroomy.cap.imp_right And.left,
    hroomy.noLimit⟩

end Login

/-- The client of `freshClient` behind a login in one piece. -/
def freshLoggedIn : Session (Option World × (Nat → Io)) :=
  freshClient.run (clientHandlers fun _ => Io.ok)
    [entersNames true someUser, receives welcomeFrame.encode]

theorem length_largestPayload : (List.replicate 65535 (0 : UInt8)).length < 2 ^ 16 := by
  rw [List.length_replicate]
  decide

/-- A frame of the largest size behind the login, in two pieces. -/
def largestPolls : List (Bool × PollResult (Option World × (Nat → Io))) :=
  let frame : Frame := ⟨msgGmsg, List.replicate 65535 0, length_largestPayload⟩
  [socketPoll (frame.encode.take appRbufInit), socketPoll (frame.encode.drop appRbufInit)]

/-- The buffer is doubled for its last four bytes. -/
theorem read_buffer_capacity_largest :
    appRunReads (clientHandlers fun _ => Io.ok).frame freshLoggedIn.app largestPolls =
        [.recv 65536, .recv 65536] ∧
      (appRun (clientHandlers fun _ => Io.ok).frame freshLoggedIn.app largestPolls).rbufCap =
        131072 ∧
      (.protocolError ∉ (appRun (clientHandlers fun _ => Io.ok).frame freshLoggedIn.app
          largestPolls).stops →
        (appRun (clientHandlers fun _ => Io.ok).frame freshLoggedIn.app
          largestPolls).rbuf.length ≤ 65539) ∧
      .bufferLimit ∉ (appRun (clientHandlers fun _ => Io.ok).frame freshLoggedIn.app
        largestPolls).stops := by
  have hroomy := read_buffer_capacity (clientHandlers fun _ => Io.ok)
    (some (World.init fun _ => none), fun _ => Io.ok)
    [entersNames true someUser, receives welcomeFrame.encode] rfl largestPolls
  obtain ⟨hreads, hcap, -⟩ := largest_frame (clientHandlers fun _ => Io.ok).frame
    (show freshLoggedIn.app.running = true from rfl) rfl rfl
    (f := ⟨msgGmsg, List.replicate 65535 0, length_largestPayload⟩) List.length_replicate
  exact ⟨hreads, hcap, hroomy.1, hroomy.2.2.2⟩

/-- Standard input is a pipe that was emptied during the login and is closed: `poll` reports
    `POLLHUP` without `POLLIN` every time, nothing is read, and nothing ever changes. -/
theorem closed_pipe_spins :
    freshLoggedIn.phase = .running ∧ freshLoggedIn.app.running = true ∧
      ¬ Progresses (clientHandlers fun _ => Io.ok).frame freshLoggedIn.app ⟨false, false, false⟩
        ⟨false, true, false⟩ (true, .interrupted) (fun s => (s, true)) ∧
      ∀ n, appRun (clientHandlers fun _ => Io.ok).frame freshLoggedIn.app
        (List.replicate n (true, pollReady ⟨false, false, false⟩ ⟨false, true, false⟩
          (true, .interrupted) (fun s => (s, true)))) = freshLoggedIn.app := by
  obtain ⟨hreads, hround⟩ := round_idle (clientHandlers fun _ => Io.ok).frame freshLoggedIn.app
    (show (Revents.mk false false false).pollin = false from rfl)
    (show (Revents.mk false true false).pollin = false from rfl)
    (true, .interrupted) (fun s => (s, true))
  refine ⟨rfl, rfl, ?_, run_idle _ _ rfl rfl _ _⟩
  unfold Progresses
  rw [hreads, hround]
  rintro (⟨-, size, hmem⟩ | ⟨-, hmem⟩ | hleft)
  · exact absurd hmem List.not_mem_nil
  · exact absurd hmem List.not_mem_nil
  · exact absurd hleft (by simp)

end Session
end TCPClient
