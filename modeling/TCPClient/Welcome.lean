import TCPClient.Session
import TCPClient.Offers
import TCPClient.FileSpec

namespace TCPClient

open Octets Memory Feed

/-!
# What a login leaves of the frames behind the Welcome

`login_loop` dispatches the frames that are received together with the Welcome, and
`app_connect` then resets the file module.  `login_keeps_offers_iff` compares a login with one
whose last batch ends with the Welcome: over the same stream they lead to the same transfer
tasks exactly when the frames behind the Welcome leave no offer open.
-/

section Follow

variable {σ : Type} (handle : Handler σ)

/-- The client has received `base` and then a stream, whose frames have been handled one after
    the other from the state `s`, and keeps the rest. -/
def Follows (base : Bytes) (s : σ) (app : App σ) : Prop :=
  ∃ stream, app.received = base ++ stream ∧
    ((∀ frame ∈ (whole protocolParse stream).items, HandledAlone handle frame) →
      app.state = handleAll handle s (whole protocolParse stream).items) ∧
    (app.running = true → (whole protocolParse stream).bad = false ∧
      app.rbuf = (whole protocolParse stream).left)

variable {handle} {base : Bytes} {s : σ} {app : App σ}

/-- Receiving and dispatching one more piece. -/
theorem Follows.receive (h : Follows handle base s app) (hrun : app.running = true)
    (got : Bytes) (rbufCap : Nat) :
    Follows handle base s (appDispatch handle
      { app with
        rbuf := app.rbuf ++ got, rbufCap := rbufCap, received := app.received ++ got }) := by
  obtain ⟨stream, hrec, hstate, hleft⟩ := h
  obtain ⟨hgood, hbuf⟩ := hleft hrun
  obtain ⟨hitems, hbad, hrest⟩ := whole_append protocolParse_stable stream got
  rw [hgood, if_neg (by simp), ← hbuf] at hitems
  rw [hgood, Bool.false_or, ← hbuf] at hbad
  rw [← hbuf] at hrest
  have hd := appDispatch_spec handle
    { app with
      rbuf := app.rbuf ++ got, rbufCap := rbufCap, received := app.received ++ got }
  refine ⟨stream ++ got, ?_, fun halone => ?_, fun hrun' => ?_⟩
  · rw [hd.received, ← List.append_assoc, ← hrec]
  · rw [hitems] at halone ⊢
    rw [appDispatch_state handle _ fun f hf => halone f (List.mem_append_right _ hf)]
    dsimp only
    rw [hstate fun f hf => halone f (List.mem_append_left _ hf), handleAll, handleAll, handleAll,
      List.foldl_append]
  · have hok : (whole protocolParse (app.rbuf ++ got)).bad = false := by
      rw [hd.running] at hrun'
      simpa [hrun] using hrun'
    rw [hbad, hrest hgood]
    exact ⟨hok, hd.left hok⟩

/-- **Step lemma.** -/
theorem Follows.round (h : Follows handle base s app) (hrun : app.running = true) (bs : Bytes) :
    Follows handle base s (appRound handle app (socketPoll bs).2).1 := by
  obtain ⟨stream, hrec, hstate, hleft⟩ := id h
  have hstop (reason : StopReason) : Follows handle base s (app.halt reason) :=
    ⟨stream, hrec, hstate, fun hr => absurd hr (by simp [App.halt])⟩
  have hsocket : Follows handle base s (appHandleSocket handle app true (.data bs)).1 := by
    -- room in the buffer, a buffer that cannot grow any more, or one of twice the size
    rw [appHandleSocket, appEnsureCapacity]
    by_cases hroom : app.rbuf.length < app.rbufCap
    · rw [if_pos hroom]
      dsimp only
      split_ifs
      · exact hstop _
      · exact h.receive hrun _ app.rbufCap
    rw [if_neg hroom]
    by_cases hmax : app.rbufCap * 2 > appRbufMax
    · rw [if_pos hmax]
      exact hstop _
    rw [if_neg hmax, if_neg (by simp)]
    dsimp only
    split_ifs
    · exact ⟨stream, hrec, hstate, fun hr => absurd hr (by simp [App.halt])⟩
    · exact h.receive hrun _ (app.rbufCap * 2)
  rw [socketPoll, appRound, pollSocket]
  generalize appHandleSocket handle app true (.data bs) = res at hsocket ⊢
  obtain ⟨app', go⟩ := res
  cases go <;> exact hsocket

/-- **Run lemma.** -/
theorem Follows.run (h : Follows handle base s app) (pieces : List Bytes) :
    Follows handle base s (appRun handle app (pieces.map socketPoll)) := by
  refine appRun_keeps handle (fun app poll hmem hrun h => ?_) h
  obtain ⟨bs, -, rfl⟩ := List.mem_map.mp hmem
  exact h.round hrun bs

/-- The rest of a batch is followed from where it starts. -/
theorem follows_appDispatch (base behind : Bytes) (rbufCap : Nat) (s : σ) :
    Follows handle base s
      (appDispatch handle ⟨behind, rbufCap, true, s, [], [], base ++ behind⟩) := by
  have hempty : whole protocolParse [] = ⟨[], [], false⟩ := whole_more protocolParse_stable.nil
  have hstart : Follows handle base s ⟨[], rbufCap, true, s, [], [], base⟩ := by
    refine ⟨[], (List.append_nil base).symm, fun _ => ?_, fun _ => ?_⟩ <;> rw [hempty]
    · rfl
    · exact ⟨rfl, rfl⟩
  exact hstart.receive rfl behind rbufCap

/-- An empty buffer takes a piece it has room for. -/
theorem received_of_room {app : App σ} (hbuf : app.rbuf = []) {bs : Bytes} (hne : bs ≠ [])
    (hroom : bs.length ≤ app.rbufCap) :
    (appRound handle app (socketPoll bs).2).1.received = app.received ++ bs := by
  have hpos := List.length_pos_of_ne_nil hne
  have hcap : appEnsureCapacity app true = (app, true) := by
    rw [appEnsureCapacity, hbuf, List.length_nil, if_pos (by omega)]
  have hgot : bs.take (app.rbufCap - app.rbuf.length) = bs := by
    rw [hbuf, List.length_nil]
    exact List.take_of_length_le hroom
  have hsocket : appHandleSocket handle app true (.data bs) = (appDispatch handle
      { app with rbuf := app.rbuf ++ bs, received := app.received ++ bs }, true) := by
    rw [appHandleSocket, hcap]
    dsimp only
    rw [hgot, if_neg hne]
  rw [socketPoll, appRound, pollSocket, hsocket]
  exact (appDispatch_spec handle _).received

/-- Two clients that follow the same stream from the same state are in the same state. -/
theorem Follows.state_eq {app' : App σ} (h : Follows handle base s app)
    (h' : Follows handle base s app') (hrec : app.received = app'.received)
    (halone : ∀ stream, app.received = base ++ stream →
      ∀ frame ∈ (whole protocolParse stream).items, HandledAlone handle frame) :
    app.state = app'.state := by
  obtain ⟨stream, hstream, hstate, -⟩ := h
  obtain ⟨stream', hstream', hstate', -⟩ := h'
  obtain rfl : stream = stream' := by
    rw [hstream, hstream'] at hrec
    exact List.append_cancel_left hrec
  have halone := halone stream hstream
  rw [hstate halone, hstate' halone]

end Follow

section Login

variable {σ : Type} (client : Handlers σ)

namespace Session

/-- Names have been sent, and `rbuf` has been received since. -/
abbrev awaiting (state : σ) (rbufCap : Nat) (rbuf : Bytes) : Session σ :=
  ⟨⟨rbuf, rbufCap, true, state, [], [], rbuf⟩, .waiting⟩

/-- The login is over; `behind` was received together with the Welcome. -/
def welcomed (state : σ) (rbufCap : Nat) (welcome : Frame) (behind : Bytes) : Session σ :=
  let app := appDispatch client.frame
    ⟨behind, rbufCap, true, client.login state welcome.type (span welcome.payload behind), [], [],
      welcome.encode ++ behind⟩
  ⟨{ app with state := client.reset app.state }, .running⟩

/-- `s` is the session right behind a login whose last batch contained the rest of the Welcome,
    and then `behind`. -/
def LoggedIn (start : Session σ) (welcome : Frame) (behind : Bytes) (s : Session σ) : Prop :=
  ∃ (pieces : List Bytes) (last : Bytes),
    (start.run client (pieces.map receives)).phase = .waiting ∧
    s = (start.run client (pieces.map receives)).step client (receives last) ∧
    s.phase = .running ∧ s.app.received = welcome.encode ++ behind

/-- One more batch while the answer is awaited: there is no room for it, or `login_loop` parses
    the buffer, unless nothing came. -/
theorem step_awaiting (state : σ) (rbufCap : Nat) (rbuf : Bytes) :
    (∀ bs, ((awaiting state rbufCap rbuf).step client (receives bs)).phase = .stopped) ∨
      ∃ cap, ∀ bs : Bytes,
        (bs.take (cap - rbuf.length) = [] →
          ((awaiting state rbufCap rbuf).step client (receives bs)).phase = .stopped) ∧
        (bs.take (cap - rbuf.length) ≠ [] →
          (awaiting state rbufCap rbuf).step client (receives bs) =
            loginBatch client (awaiting state cap (rbuf ++ bs.take (cap - rbuf.length))).app) := by
  have hstep (bs : Bytes) : (awaiting state rbufCap rbuf).step client (receives bs) =
      loginSocket client (awaiting state rbufCap rbuf).app true (.data bs) := rfl
  have hgot (cap : Nat) (hcap : appEnsureCapacity (awaiting state rbufCap rbuf).app true =
      ((awaiting state cap rbuf).app, true)) (bs : Bytes) :
      (bs.take (cap - rbuf.length) = [] →
        ((awaiting state rbufCap rbuf).step client (receives bs)).phase = .stopped) ∧
      (bs.take (cap - rbuf.length) ≠ [] →
        (awaiting state rbufCap rbuf).step client (receives bs) =
          loginBatch client (awaiting state cap (rbuf ++ bs.take (cap - rbuf.length))).app) := by
    rw [hstep, loginSocket, hcap]
    exact ⟨fun hnil => congrArg Session.phase (if_pos hnil), fun hne => if_neg hne⟩
  by_cases hroom : rbuf.length < rbufCap
  · exact Or.inr ⟨rbufCap, hgot rbufCap (if_pos hroom)⟩
  by_cases hmax : rbufCap * 2 > appRbufMax
  · refine Or.inl fun bs => ?_
    rw [hstep, loginSocket, appEnsureCapacity, if_neg hroom, if_pos hmax]
  · refine Or.inr ⟨rbufCap * 2, hgot _ ?_⟩
    rw [appEnsureCapacity, if_neg hroom, if_neg hmax]
    rfl

/-- Part of the Welcome is kept. -/
theorem loginBatch_part (state : σ) (rbufCap : Nat) {welcome : Frame} {rbuf : Bytes}
    (hpart : rbuf <+: welcome.encode) (hlen : rbuf.length < welcome.encode.length) :
    loginBatch client (awaiting state rbufCap rbuf).app = awaiting state rbufCap rbuf := by
  -- a proper part of a frame is no frame, so the parse loop makes no round
  have hmore : protocolParse rbuf = .more := by
    rw [List.prefix_iff_eq_take.mp hpart]
    exact protocolParse_take_encode welcome hlen
  have hparse : loginParse client rbuf.length 0 (awaiting state rbufCap rbuf).app =
      ((awaiting state rbufCap rbuf).app, some (0, .waiting)) := by
    cases hfuel : rbuf.length with
    | zero => rfl
    | succ fuel =>
      rw [loginParse, if_pos (show 0 < rbuf.length by omega), List.drop_zero, hmore]
  rw [loginBatch, hparse]
  rfl

/-- The Welcome ends the login, whatever stands behind it. -/
theorem loginBatch_welcome (state : σ) (rbufCap : Nat) {welcome : Frame}
    (htype : welcome.type = msgServerMsg) (behind : Bytes) :
    loginBatch client (awaiting state rbufCap (welcome.encode ++ behind)).app =
      welcomed client state rbufCap welcome behind := by
  have hout : loginOutcome welcome.type = .loggedIn := by
    rw [htype]
    rfl
  obtain ⟨k, -, hdrop, hparse⟩ := loginParse_frame client
    (show (welcome.encode ++ behind).length - 0 ≤ (welcome.encode ++ behind).length from
      Nat.le_refl _)
    (show (awaiting state rbufCap (welcome.encode ++ behind)).app.rbuf.drop 0 =
      welcome.encode ++ behind from rfl)
  rw [if_neg (by rw [hout]; simp), hout] at hparse
  rw [loginBatch, hparse, welcomed]
  dsimp only [App.loginFrame] at hdrop ⊢
  rw [hdrop]

/-- A batch behind a Welcome that came alone is received whole, if there is room for it. -/
theorem received_alone (state : σ) {rbufCap : Nat} (welcome : Frame) {bs : Bytes} (hne : bs ≠ [])
    (hroom : bs.length ≤ rbufCap) :
    ((welcomed client state rbufCap welcome []).run client ([bs].map receives)).app.received =
      welcome.encode ++ bs := by
  have hd := appDispatch_spec client.frame ⟨[], rbufCap, true,
    client.login state welcome.type (span welcome.payload []), [], [], welcome.encode ++ []⟩
  rw [whole_more protocolParse_stable.nil] at hd
  have hlive : (welcomed client state rbufCap welcome []).app.running = true ∧ true = true :=
    ⟨hd.running, rfl⟩
  have hbuf : (welcomed client state rbufCap welcome []).app.rbuf = [] := hd.left rfl
  have hcap : (welcomed client state rbufCap welcome []).app.rbufCap = rbufCap := hd.rbufCap
  have hrec : (welcomed client state rbufCap welcome []).app.received = welcome.encode ++ [] :=
    hd.received
  show ((Session.mk (welcomed client state rbufCap welcome []).app .running).step client
    (.poll true (socketPoll bs).2)).app.received = _
  rw [step_live client hlive]
  show (appRound client.frame (welcomed client state rbufCap welcome []).app
    (socketPoll bs).2).1.received = _
  rw [received_of_room hbuf hne (hroom.trans (le_of_eq hcap.symm)), hrec, List.append_nil]

variable {client} {welcome : Frame} {behind : Bytes} {state : σ}

/-- A buffer that agrees with the stream either is a part of the Welcome or contains it. -/
theorem part_or_welcome {rbuf : Bytes} (hpre : rbuf <+: welcome.encode ++ behind) :
    (rbuf <+: welcome.encode ∧ rbuf.length < welcome.encode.length) ∨
      ∃ tail, rbuf = welcome.encode ++ tail := by
  by_cases hlen : rbuf.length < welcome.encode.length
  · exact Or.inl ⟨List.prefix_of_prefix_length_le hpre (List.prefix_append _ _) hlen.le, hlen⟩
  · obtain ⟨tail, htail⟩ :=
      List.prefix_of_prefix_length_le (List.prefix_append _ _) hpre (not_lt.mp hlen)
    exact Or.inr ⟨tail, htail.symm⟩

/-- Until the Welcome is complete the client holds what it has received. -/
theorem awaiting_run (htype : welcome.type = msgServerMsg) (pieces : List Bytes)
    {rbufCap : Nat} {rbuf : Bytes} (hpart : rbuf <+: welcome.encode)
    (hlen : rbuf.length < welcome.encode.length) {t : Session σ}
    (ht : t = (awaiting state rbufCap rbuf).run client (pieces.map receives))
    (hwait : t.phase = .waiting) (hpre : t.app.received <+: welcome.encode ++ behind) :
    ∃ cap rbuf', t = awaiting state cap rbuf' ∧ rbuf' <+: welcome.encode ∧
      rbuf'.length < welcome.encode.length := by
  induction pieces generalizing rbufCap rbuf with
  | nil => exact ⟨rbufCap, rbuf, ht, hpart, hlen⟩
  | cons bs pieces ih =>
    rw [List.map_cons, run, List.foldl_cons] at ht
    -- a login that has stopped would not wait at the end
    have hgone (hstop : ((awaiting state rbufCap rbuf).step client (receives bs)).phase =
        .stopped) : False := by
      obtain ⟨app, hs⟩ : ∃ app, (awaiting state rbufCap rbuf).step client (receives bs) =
          ⟨app, .stopped⟩ := ⟨_, by rw [← hstop]⟩
      have hphase := congrArg Session.phase ht
      rw [hs, ← run, run_stopped, hwait] at hphase
      exact absurd hphase (by simp)
    rcases step_awaiting client state rbufCap rbuf with hnever | ⟨cap, hstep⟩
    · exact (hgone (hnever bs)).elim
    by_cases hnil : bs.take (cap - rbuf.length) = []
    · exact (hgone ((hstep bs).1 hnil)).elim
    rw [(hstep bs).2 hnil] at ht
    have hmore := run_received client
      (loginBatch client (awaiting state cap (rbuf ++ bs.take (cap - rbuf.length))).app)
      (pieces.map receives)
    rw [run, ← ht, loginBatch_received] at hmore
    generalize rbuf ++ bs.take (cap - rbuf.length) = got at ht hmore
    rcases part_or_welcome (hmore.trans hpre) with ⟨hpart', hlen'⟩ | ⟨tail, htail⟩
    · rw [loginBatch_part client state cap hpart' hlen'] at ht
      exact ih hpart' hlen' ht
    · -- the Welcome would have ended the login
      obtain rfl : got = welcome.encode ++ tail := htail
      rw [loginBatch_welcome client state cap htype] at ht
      have hphase := run_running_phase client (welcomed client state cap welcome tail).app
        (pieces.map socketPoll)
      rw [List.map_map] at hphase
      rw [ht] at hwait
      exact absurd hwait hphase

/-- **Login specification.** A login over a stream that starts with the Welcome ends in
    `welcomed`; its last batch could also have ended with the Welcome. -/
theorem LoggedIn.spec (htype : welcome.type = msgServerMsg) {rbufCap : Nat} {s : Session σ}
    (h : LoggedIn client (awaiting state rbufCap []) welcome behind s) :
    ∃ cap, behind.length ≤ cap ∧ s = welcomed client state cap welcome behind ∧
      LoggedIn client (awaiting state rbufCap []) welcome []
        (welcomed client state cap welcome []) := by
  obtain ⟨pieces, last, hwait, hs, hrunning, hrec⟩ := h
  have hpre := run_received client ((awaiting state rbufCap []).run client (pieces.map receives))
    [receives last]
  rw [show Session.run client _ [receives last] = s from hs.symm, hrec] at hpre
  obtain ⟨cap0, rbuf, hbefore, hpart, hlen⟩ :=
    awaiting_run htype pieces (List.nil_prefix) (by simp) rfl hwait hpre
  rw [hbefore] at hs
  rcases step_awaiting client state cap0 rbuf with hnever | ⟨cap, hstep⟩
  · rw [hs, hnever last] at hrunning
    exact absurd hrunning (by simp)
  by_cases hnil : last.take (cap - rbuf.length) = []
  · rw [hs, (hstep last).1 hnil] at hrunning
    exact absurd hrunning (by simp)
  rw [(hstep last).2 hnil] at hs
  -- what was received is the buffer
  have hbuf : rbuf ++ last.take (cap - rbuf.length) = welcome.encode ++ behind := by
    rw [← hrec, hs, loginBatch_received]
  have hbytes := congrArg List.length hbuf
  have htake := List.length_take_le (cap - rbuf.length) last
  rw [List.length_append, List.length_append] at hbytes
  refine ⟨cap, by omega, ?_, pieces, welcome.encode.drop rbuf.length, hwait, ?_, rfl, ?_⟩
  · rw [hs, hbuf, loginBatch_welcome client state cap htype]
  · -- the last batch, cut behind the Welcome
    have hrest : rbuf ++ welcome.encode.drop rbuf.length = welcome.encode := by
      obtain ⟨tail, htail⟩ := hpart
      rw [← htail, List.drop_left]
    have hcut : (welcome.encode.drop rbuf.length).take (cap - rbuf.length) =
        welcome.encode.drop rbuf.length :=
      List.take_of_length_le (by rw [List.length_drop]; omega)
    have halone := (hstep (welcome.encode.drop rbuf.length)).2 (by
      rw [hcut]
      intro hnil
      have hzero := congrArg List.length hnil
      rw [List.length_drop, List.length_nil] at hzero
      omega)
    rw [hcut, hrest] at halone
    have hwelcome := loginBatch_welcome client state cap htype []
    rw [List.append_nil] at hwelcome
    rw [hbefore, halone, hwelcome]
  · exact (appDispatch_spec client.frame _).received

end Session
end Login

/-! ### The reset at the end of the login -/

namespace World

/-- `file_reset_all` leaves no receive task. -/
theorem idle_fileResetAll (w : World) (io : Slot → Io) (i : Slot) :
    ((w.fileResetAll io).recv i).busy = false := by
  rw [fileResetAll]
  generalize (if w.send.busy then w.sendTaskClear else w) = w'
  rw [World.recv, (resetRecv_foldl io _ w').2.2 i]
  split_ifs with hbusy
  · rfl
  · simpa [List.mem_finRange] using hbusy

/-- Without a task there is nothing to reset. -/
theorem fileResetAll_idle {w : World} (hsend : w.send.busy = false)
    (hrecv : ∀ i, (w.recv i).busy = false) (io : Slot → Io) : w.fileResetAll io = w := by
  have hnone (i : Slot) : resetRecv io w i = w := by
    rw [resetRecv, hrecv i]
    rfl
  have hloop (l : List Slot) : l.foldl (resetRecv io) w = w := by
    induction l with
    | nil => rfl
    | cons i l ih => rw [List.foldl_cons, hnone i, ih]
  rw [fileResetAll, hsend]
  exact hloop _

end World

/-! ### Two logins over one stream -/

/-- Every frame of the stream is one that the handlers do not leave. -/
def AllConfined (stream : Bytes) : Prop :=
  ∀ frame ∈ (whole protocolParse stream).items, AppConfined frame.1 frame.2

namespace Session

variable (resetIo : Slot → Io)

/-- The tasks of the file module, unless a frame has been left. -/
def tasks (s : Session (Option World × (Nat → Io))) : Option Tasks := s.app.state.1.map World.tasks

/-- A client that starts over some files, when the first names have been entered. -/
def firstLogin (disk : Bytes → Option Bytes) (ios : Nat → Io) (sendOk : Bool)
    (names : Option (Bytes × Bytes)) : Session (Option World × (Nat → Io)) :=
  (connect (some (World.init disk), ios)).step (clientHandlers resetIo) (entersNames sendOk names)

theorem firstLogin_cases (disk : Bytes → Option Bytes) (ios : Nat → Io) (sendOk : Bool)
    (names : Option (Bytes × Bytes)) :
    (∃ app, firstLogin resetIo disk ios sendOk names = ⟨app, .stopped⟩) ∨
      ∃ w : World, w.Offers [] ∧
        firstLogin resetIo disk ios sendOk names = awaiting (some w, ios) appRbufInit [] := by
  have hoffers : ((World.init disk).commandsLogin sendOk names).1.Offers [] :=
    (World.Offers.init disk).congr (by simp)
  have hstep : firstLogin resetIo disk ios sendOk names =
      ⟨(awaiting (some ((World.init disk).commandsLogin sendOk names).1, ios) appRbufInit []).app,
        if decide (((World.init disk).commandsLogin sendOk names).2 = .ok) = true then .waiting
        else .stopped⟩ := rfl
  rw [hstep]
  split_ifs
  · exact Or.inr ⟨_, hoffers, rfl⟩
  · exact Or.inl ⟨_, rfl⟩

/-- The frames of a stream that starts with a whole frame. -/
theorem items_encode (f : Frame) (rest : Bytes) :
    (whole protocolParse (f.encode ++ rest)).items =
      (f.type, f.payload) :: (whole protocolParse rest).items := by
  rw [whole_item protocolParse_stable (protocolParse_encode f rest), ← Frame.length_encode,
    List.drop_left]
  rfl

variable {resetIo} {w : World} {ios : Nat → Io} {welcome : Frame} {behind : Bytes}

variable (resetIo w ios) in
/-- The state after a login: the frames behind the Welcome have been handled, and then the file
    module was reset. -/
theorem welcomed_state (htype : welcome.type = msgServerMsg)
    (hconf : AllConfined (welcome.encode ++ behind)) (rbufCap : Nat) :
    let text := welcome.payload.takeWhile (· ≠ 0)
    let app := appDispatch appHandler
      ⟨behind, rbufCap, true, (some (w.displayIncoming text), ios), [], [],
        welcome.encode ++ behind⟩
    welcomed (clientHandlers resetIo) (some w, ios) rbufCap welcome behind =
        ⟨{ app with state := (clientHandlers resetIo).reset app.state }, .running⟩ ∧
      app.state = handleAll appHandler (some (w.displayIncoming text), ios)
        (whole protocolParse behind).items := by
  rw [AllConfined, items_encode] at hconf
  have hnul : 0 ∈ welcome.payload := by
    refine (hconf (welcome.type, welcome.payload) (by simp)).1 ?_
    exact Or.inl htype
  intro text app
  constructor
  · -- the Welcome is displayed, whatever stands behind it
    have htext : cstr (span welcome.payload behind) 0 = some text := by
      obtain ⟨r, hr⟩ := (confined_cstr_map id 0 welcome.payload).mpr (by simpa using hnul)
      have hnil := hr []
      have hrest := hr behind
      simp only [Option.map_id, id_eq] at hnil hrest
      rw [cstr_span_nil, List.drop_zero, if_pos hnul] at hnil
      rw [hrest, ← hnil]
    have hlogin : (clientHandlers resetIo).login (some w, ios) welcome.type
        (span welcome.payload behind) = (some (w.displayIncoming text), ios) := by
      simp only [clientHandlers, World.loginHandleFrame, Option.bind_some]
      rw [if_pos htype, htext]
      rfl
    rw [welcomed, hlogin]
    rfl
  · exact appDispatch_state_of_appConfined _ fun f hf => hconf f (List.mem_cons_of_mem _ hf)

/-- If the frames behind the Welcome leave no offer open, the reset does nothing. -/
theorem follows_welcomed (hw : w.Offers []) (htype : welcome.type = msgServerMsg)
    (hconf : AllConfined (welcome.encode ++ behind))
    (hopen : openOffers (whole protocolParse behind).items = []) (rbufCap : Nat) :
    Follows appHandler welcome.encode
      (some (w.displayIncoming (welcome.payload.takeWhile (· ≠ 0))), ios)
      (welcomed (clientHandlers resetIo) (some w, ios) rbufCap welcome behind).app := by
  obtain ⟨hs, hstate⟩ := welcomed_state resetIo w ios htype hconf rbufCap
  rw [AllConfined, items_encode] at hconf
  have hdisplayed : (w.displayIncoming (welcome.payload.takeWhile (· ≠ 0))).Offers [] :=
    hw.congr rfl
  obtain ⟨w', ios', hall, hw'⟩ := World.handleFrames_offers hdisplayed
    (fun f hf => hconf f (List.mem_cons_of_mem _ hf)) ios
  rw [← openOffers, hopen] at hw'
  rw [hall] at hstate
  have hreset : (clientHandlers resetIo).reset (some w', ios') = (some w', ios') := by
    simp only [clientHandlers, Option.map_some]
    rw [World.fileResetAll_idle hw'.send (hw'.idle_iff.mp rfl)]
  rw [hs, hstate, hreset, ← hstate]
  exact follows_appDispatch _ _ _ _

/-- And so it is however the stream goes on. -/
theorem follows_run (hw : w.Offers []) (htype : welcome.type = msgServerMsg)
    (hconf : AllConfined (welcome.encode ++ behind))
    (hopen : openOffers (whole protocolParse behind).items = []) (rbufCap : Nat)
    (pieces : List Bytes) :
    Follows appHandler welcome.encode
      (some (w.displayIncoming (welcome.payload.takeWhile (· ≠ 0))), ios)
      ((welcomed (clientHandlers resetIo) (some w, ios) rbufCap welcome behind).run
        (clientHandlers resetIo) (pieces.map receives)).app := by
  have hrun := run_running (clientHandlers resetIo)
    (welcomed (clientHandlers resetIo) (some w, ios) rbufCap welcome behind).app
    (pieces.map socketPoll)
  rw [List.map_map] at hrun
  exact hrun ▸ (follows_welcomed hw htype hconf hopen rbufCap).run pieces

/-- A stream that ends with the Welcome. -/
theorem allConfined_welcome (hconf : AllConfined (welcome.encode ++ behind)) :
    AllConfined (welcome.encode ++ []) := by
  rw [AllConfined, items_encode] at hconf ⊢
  rw [whole_more protocolParse_stable.nil]
  intro frame hmem
  rw [List.mem_singleton.mp hmem]
  exact hconf _ (List.mem_cons_self ..)

variable (resetIo ios) in
/-- Received in a batch of their own, the frames leave their offers open; received together with
    the Welcome they leave none. -/
theorem offers_of_tasks_eq (hw : w.Offers []) (htype : welcome.type = msgServerMsg)
    (hconf : AllConfined (welcome.encode ++ behind)) {rbufCap : Nat}
    (hroom : behind.length ≤ rbufCap) (hne : behind ≠ []) :
    let s := welcomed (clientHandlers resetIo) (some w, ios) rbufCap welcome behind
    let b := (welcomed (clientHandlers resetIo) (some w, ios) rbufCap welcome []).run
      (clientHandlers resetIo) ([behind].map receives)
    s.app.received = b.app.received ∧
      (s.tasks = b.tasks → openOffers (whole protocolParse behind).items = []) := by
  intro s b
  have hnil : whole protocolParse [] = ⟨[], [], false⟩ := whole_more protocolParse_stable.nil
  -- the frames in a batch of their own are handled behind the reset
  have hfollow : Follows appHandler welcome.encode
      (some (w.displayIncoming (welcome.payload.takeWhile (· ≠ 0))), ios) b.app :=
    follows_run hw htype (allConfined_welcome hconf) (by rw [hnil]; rfl) rbufCap [behind]
  obtain ⟨hs, hstate⟩ := welcomed_state resetIo w ios htype hconf rbufCap
  have hframes : ∀ frame ∈ (whole protocolParse behind).items, AppConfined frame.1 frame.2 := by
    rw [AllConfined, items_encode] at hconf
    exact fun f hf => hconf f (List.mem_cons_of_mem _ hf)
  have hdisplayed : (w.displayIncoming (welcome.payload.takeWhile (· ≠ 0))).Offers [] :=
    hw.congr rfl
  obtain ⟨w', ios', hall, hw'⟩ := World.handleFrames_offers hdisplayed hframes ios
  have hrec : b.app.received = welcome.encode ++ behind := received_alone _ _ _ hne hroom
  have hsrec : s.app.received = welcome.encode ++ behind :=
    (appDispatch_spec appHandler _).received
  refine ⟨hsrec.trans hrec.symm, fun htasks => ?_⟩
  obtain ⟨stream, hstream, hb, -⟩ := hfollow
  obtain rfl : behind = stream := List.append_cancel_left (hrec.symm.trans hstream)
  have hbstate := hb fun frame hmem => handledAlone_of_appConfined (hframes frame hmem)
  rw [hall] at hbstate hstate
  have hreset : some (w'.fileResetAll resetIo).tasks = some w'.tasks := by
    have hleft : s.tasks = some (w'.fileResetAll resetIo).tasks := by
      show (Session.tasks (welcomed (clientHandlers resetIo) (some w, ios) rbufCap welcome
        behind)) = _
      rw [hs, hstate]
      rfl
    have hright : b.tasks = some w'.tasks := by
      rw [tasks, hbstate]
      rfl
    rw [← hleft, ← hright, htasks]
  apply hw'.idle_iff.mpr
  intro i
  have hidle := w'.idle_fileResetAll resetIo i
  rwa [World.recv, Option.some.inj hreset] at hidle

/-- **A login keeps the offers** that arrive together with the Welcome exactly when there are
    none.  Compared with any login over the same stream whose last batch ends with the Welcome,
    however the rest is cut into pieces, the tasks are the same if and only if the frames behind
    the Welcome leave no offer open. -/
theorem login_keeps_offers_iff (disk : Bytes → Option Bytes) (sendOk : Bool)
    (names : Option (Bytes × Bytes)) (htype : welcome.type = msgServerMsg)
    {s : Session (Option World × (Nat → Io))}
    (hs : LoggedIn (clientHandlers resetIo) (firstLogin resetIo disk ios sendOk names) welcome
      behind s)
    (hconf : AllConfined s.app.received) :
    (∀ alone, LoggedIn (clientHandlers resetIo) (firstLogin resetIo disk ios sendOk names) welcome
        [] alone →
      ∀ later later' : List Bytes,
        let a := s.run (clientHandlers resetIo) (later.map receives)
        let b := alone.run (clientHandlers resetIo) (later'.map receives)
        a.app.received = b.app.received → AllConfined a.app.received → a.tasks = b.tasks) ↔
      openOffers (whole protocolParse behind).items = [] := by
  have hnil : whole protocolParse [] = ⟨[], [], false⟩ := whole_more protocolParse_stable.nil
  obtain ⟨-, -, -, -, -, hsrec⟩ := id hs
  rw [hsrec] at hconf
  rcases firstLogin_cases resetIo disk ios sendOk names with ⟨app, hfirst⟩ | ⟨w, hw, hfirst⟩
  · -- nothing was sent
    obtain ⟨pieces, last, hwait, -⟩ := hs
    rw [hfirst, run_stopped] at hwait
    exact absurd hwait (by simp)
  rw [hfirst] at hs ⊢
  obtain ⟨rbufCap, hroom, rfl, halone⟩ := hs.spec htype
  constructor
  · -- compared with the login whose last batch is cut behind the Welcome, the rest following
    intro hsame
    by_cases hne : behind = []
    · rw [hne, hnil]
      rfl
    obtain ⟨hrec, hoffers⟩ := offers_of_tasks_eq resetIo ios hw htype hconf hroom hne
    refine hoffers (hsame _ halone [] [behind] hrec ?_)
    exact (appDispatch_spec appHandler _).received.symm ▸ hconf
  · -- the reset changes nothing in either of the two, and both follow the stream
    intro hopen alone hlogin later later' a b hrec hall
    obtain ⟨rbufCap', -, rfl, -⟩ := hlogin.spec htype
    have hstate := (follows_run hw htype hconf hopen rbufCap later).state_eq
      (follows_run hw htype (allConfined_welcome hconf) (by rw [hnil]; rfl) rbufCap' later') hrec
      fun stream hstream frame hmem => by
        rw [show a.app.received = welcome.encode ++ stream from hstream, AllConfined,
          items_encode] at hall
        exact handledAlone_of_appConfined (hall frame (List.mem_cons_of_mem _ hmem))
    exact congrArg (fun state => state.1.map World.tasks) hstate

/-- An offer, and its end. -/
def offerFrame : Frame :=
  ⟨msgServerMsg,
    utf8 "[Server] Incoming file transfer #7 from alice: 'b.txt' (200 bytes). Accept or reject?" ++
      [0], by decide⟩
def cancelFrame : Frame := ⟨msgFileCancel, [0, 0, 0, 7], by decide⟩

/-- A client over an empty folder, everything succeeding, when its names have been entered. -/
def entered : Session (Option World × (Nat → Io)) :=
  firstLogin (fun _ => Io.ok) (fun _ => none) (fun _ => Io.ok) true someUser

/-- An offer that is taken back in the batch of the Welcome. -/
def takenBack : Session (Option World × (Nat → Io)) :=
  entered.run (clientHandlers fun _ => Io.ok)
    [receives (welcomeFrame.encode ++ (offerFrame.encode ++ cancelFrame.encode))]

theorem takenBack_received : takenBack.app.received =
    welcomeFrame.encode ++ (offerFrame.encode ++ cancelFrame.encode) := by
  decide

theorem takenBack_confined : AllConfined takenBack.app.received := by
  have hserver {f : Frame} (htype : f.type = msgServerMsg) (hnul : 0 ∈ f.payload) :
      AppConfined f.type f.payload := by
    rw [htype]
    exact ⟨fun _ => hnul, fun h => absurd h (by decide), fun h => absurd h (by decide)⟩
  have hnil : whole protocolParse (cancelFrame.encode ++ []) =
      ⟨[(cancelFrame.type, cancelFrame.payload)], [], false⟩ := by decide
  rw [takenBack_received, AllConfined, items_encode, items_encode,
    ← List.append_nil cancelFrame.encode, hnil]
  intro frame hmem
  simp only [List.mem_cons, List.not_mem_nil, or_false] at hmem
  rcases hmem with rfl | rfl | rfl
  · exact hserver rfl (by decide)
  · exact hserver rfl (by decide)
  · exact ⟨fun h => absurd h (by decide), fun h => absurd h (by decide),
      fun h => absurd h (by decide)⟩

theorem login_keeps_offers_taken_back :
    (takenBack.run (clientHandlers fun _ => Io.ok) []).tasks =
      ((entered.run (clientHandlers fun _ => Io.ok) [receives welcomeFrame.encode]).run
        (clientHandlers fun _ => Io.ok)
        ([offerFrame.encode ++ cancelFrame.encode].map receives)).tasks :=
  (login_keeps_offers_iff (fun _ => none) true someUser rfl
    ⟨[], welcomeFrame.encode ++ (offerFrame.encode ++ cancelFrame.encode), by decide, rfl,
      by decide, takenBack_received⟩ takenBack_confined).mpr (by decide)
    _ ⟨[], welcomeFrame.encode, by decide, rfl, by decide, by decide⟩
    [] [offerFrame.encode ++ cancelFrame.encode] (by decide) takenBack_confined

/-- An offer that arrives together with the Welcome is gone, and `/accept` does not find it. -/
theorem offer_lost_with_welcome :
    let together := entered.run (clientHandlers fun _ => Io.ok)
      [receives (welcomeFrame.encode ++ offerFrame.encode)]
    let apart := entered.run (clientHandlers fun _ => Io.ok)
      [receives welcomeFrame.encode, receives offerFrame.encode]
    together.app.received = apart.app.received ∧ together.tasks ≠ apart.tasks ∧
      (together.app.state.1.bind fun w => w.recvTaskFind 7) = none ∧
      (apart.app.state.1.bind fun w => w.recvTaskFind 7) = some 0 := by
  refine ⟨by decide, fun htasks => ?_, by decide, by decide⟩
  have hbusy := congrArg (Option.map fun t => (t.recv 0).busy) htasks
  exact absurd hbusy (by decide)

end Session
end TCPClient
