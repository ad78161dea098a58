import TCPClient.Dispatch
import TCPClient.FrameHandlers

namespace TCPClient

open Octets Memory

/-!
# Which frames are handled inside their payload

`protocol_parse` promises neither a NUL nor, for an empty payload, a pointer; the handlers take
payloads as C strings all the same.  `confined_iff` lists, for `app_handle_frame` and for
`login_loop`, exactly the frames that are handled without a read outside the payload; for them
the outcome is a function of the payload alone.
-/

/-- Among the first `count` names in `tail` is one without its NUL. -/
def OpenName (count : Nat) (tail : Bytes) : Prop :=
  ∃ (names : List Bytes) (last : Bytes), names.length < count ∧
    (∀ name ∈ names, name ≠ [] ∧ 0 ∉ name) ∧ last ≠ [] ∧ 0 ∉ last ∧
    tail = (names.flatMap fun name => name ++ [0]) ++ last

/-- The payloads that `app_handle_frame` does not leave: texts and error messages with a NUL, a
    list of users with a count and a NUL behind every name that is read. -/
def AppConfined (type : UInt8) (pl : Bytes) : Prop :=
  (type = msgServerMsg ∨ type = msgChat ∨ type = msgPriv ∨ type = msgGmsg → 0 ∈ pl) ∧
  (type = msgError → pl.length < 3 ∨ 0 ∈ pl.drop 3) ∧
  (type = msgOnlineUsers → 2 ≤ pl.length ∧ ¬ OpenName (utilsReadU16Be pl) (pl.drop 4))

/-- The payloads that `login_loop` does not leave. -/
def LoginConfined (type : UInt8) (pl : Bytes) : Prop :=
  (type = msgServerMsg → 0 ∈ pl) ∧ (type = msgError → 0 ∈ pl.drop 3)

/-! ### The list of users -/

theorem not_openName_zero (tail : Bytes) : ¬ OpenName 0 tail := by
  rintro ⟨names, last, hlen, -⟩
  omega

theorem not_openName_nil (count : Nat) : ¬ OpenName count [] := by
  rintro ⟨names, last, -, -, hlast, -, heq⟩
  exact hlast (List.append_eq_nil_iff.mp heq.symm).2

/-- A tail without a NUL is an open name, if there is anything in it. -/
theorem openName_of_no_nul {count : Nat} {tail : Bytes} (hcount : 0 < count) (hne : tail ≠ [])
    (hnul : 0 ∉ tail) : OpenName count tail :=
  ⟨[], tail, by simpa using hcount, by simp, hne, hnul, by simp⟩

/-- Behind a closed name the question is about the rest. -/
theorem openName_cons {count : Nat} {name rest : Bytes} (hne : name ≠ []) (hnul : 0 ∉ name) :
    OpenName (count + 1) (name ++ 0 :: rest) ↔ OpenName count rest := by
  constructor
  · rintro ⟨names, last, hlen, hnames, hlast, hlnul, heq⟩
    cases names with
    | nil =>
      -- the last name would contain the NUL
      have hmem : 0 ∈ last := by
        rw [show last = name ++ 0 :: rest by simpa using heq.symm]
        simp
      exact absurd hmem hlnul
    | cons n ns =>
      rw [List.flatMap_cons, List.append_assoc, List.append_assoc, List.singleton_append] at heq
      -- both sides start with the same C string
      have hn : name = n := by
        have h := congrArg (List.takeWhile (· ≠ 0)) heq
        rwa [takeWhile_name hnul, takeWhile_name (hnames n (by simp)).2] at h
      subst hn
      have hrest := (List.cons.inj (List.append_cancel_left heq)).2
      exact ⟨ns, last, by simpa using hlen, fun m hm => hnames m (by simp [hm]), hlast, hlnul,
        hrest⟩
  · rintro ⟨names, last, hlen, hnames, hlast, hlnul, rfl⟩
    refine ⟨name :: names, last, by simpa using hlen, ?_, hlast, hlnul, by simp⟩
    intro n hn
    rcases List.mem_cons.mp hn with rfl | hn
    · exact ⟨hne, hnul⟩
    · exact hnames n hn

/-- An empty name ends the list. -/
theorem not_openName_nul (count : Nat) (rest : Bytes) : ¬ OpenName count (0 :: rest) := by
  rintro ⟨names, last, hlen, hnames, hlast, hlnul, heq⟩
  cases names with
  | nil => exact hlnul (by rw [show last = 0 :: rest by simpa using heq.symm]; simp)
  | cons n ns =>
    obtain ⟨hne, hnul⟩ := hnames n (by simp)
    obtain ⟨b, bs, rfl⟩ := List.exists_cons_of_ne_nil hne
    have hb : (0 : UInt8) = b := by simpa using (List.cons.inj (by simpa using heq)).1
    exact hnul (by simp [← hb])

theorem local_onlineUsersLoop (plen count fuel i seen : Nat) (users : Bytes) :
    Local fun p => World.onlineUsersLoop p plen count fuel i seen users := by
  induction fuel generalizing i seen users with
  | zero => exact .const _
  | succ fuel ih =>
    unfold World.onlineUsersLoop
    refine .ite (.bind (local_cstr i) fun name => ?_) (.const _)
    exact .ite (.const _) (ih _ _ _)

/-- The loop leaves the payload exactly when it comes to an open name. -/
theorem isSome_onlineUsersLoop (pl : Bytes) (count fuel i seen : Nat) (users : Bytes)
    (hfuel : count = seen + fuel) :
    (World.onlineUsersLoop (span pl []) pl.length count fuel i seen users).isSome = true ↔
      ¬ OpenName fuel (pl.drop i) := by
  induction fuel generalizing i seen users with
  | zero => simp [World.onlineUsersLoop, not_openName_zero]
  | succ fuel ih =>
    rw [World.onlineUsersLoop]
    by_cases hi : i < pl.length
    swap
    · -- the payload is read to its end
      rw [if_neg fun h => hi h.1, List.drop_eq_nil_of_le (by omega)]
      simp [not_openName_nil]
    rw [if_pos ⟨hi, by omega⟩, cstr_span_nil]
    by_cases hnul : 0 ∈ pl.drop i
    swap
    · rw [if_neg hnul]
      have hne : pl.drop i ≠ [] := by simpa using hi
      simp [openName_of_no_nul (Nat.succ_pos fuel) hne hnul]
    rw [if_pos hnul, Option.bind_some]
    have hsplit := eq_takeWhile_append hnul
    have hname : 0 ∉ (pl.drop i).takeWhile (· ≠ 0) := fun h => by
      simpa using List.mem_takeWhile_imp h
    -- the name that `strlen` measures, and what follows its NUL
    generalize (pl.drop i).takeWhile (· ≠ 0) = name at hsplit hname ⊢
    rw [List.drop_drop] at hsplit
    by_cases hempty : name = []
    · -- the double NUL ends the list
      subst hempty
      rw [if_pos rfl, hsplit, List.nil_append]
      simp [not_openName_nul]
    · rw [if_neg hempty, ih _ _ _ (by omega), hsplit, openName_cons hempty hname, Nat.add_assoc]

/-- The list of users is displayed from the payload alone exactly when its count is there and
    no name that is read is open. -/
theorem confined_uiDisplayOnlineUsers (w : World) (pl : Bytes) :
    Confined (fun p => w.uiDisplayOnlineUsers p pl.length) pl ↔
      2 ≤ pl.length ∧ ¬ OpenName (utilsReadU16Be pl) (pl.drop 4) := by
  have hloop (count : Nat) : Local fun p => World.onlineUsersLoop p pl.length count count 4 0 [] :=
    local_onlineUsersLoop pl.length count count 4 0 []
  have hlocal : Local fun p => w.uiDisplayOnlineUsers p pl.length :=
    .bind (local_read 0 2) fun head => (hloop (utilsReadU16Be head)).map _
  rw [hlocal.confined_iff]
  by_cases h2 : 2 ≤ pl.length
  · have hhead : utilsReadU16Be ((pl.drop 0).take 2) = utilsReadU16Be pl := by
      simp [utilsReadU16Be, List.take_take]
    rw [World.uiDisplayOnlineUsers, read_span (by omega), Option.bind_some, hhead,
      Option.isSome_map, isSome_onlineUsersLoop pl _ _ 4 0 [] (by omega)]
    exact ⟨fun h => ⟨h2, h⟩, fun h => h.2⟩
  · -- not even the count is inside the payload
    have hnone : read (span pl []) 0 2 = none := by
      rw [← Option.not_isSome_iff_eq_none, isSome_read_span_nil pl 0 (by omega)]
      omega
    simp [World.uiDisplayOnlineUsers, hnone, h2]

/-! ### Texts and error messages -/

theorem confined_cstr_map {α : Type} (g : Bytes → α) (off : Nat) (pl : Bytes) :
    Confined (fun p => (cstr p off).map g) pl ↔ 0 ∈ pl.drop off := by
  rw [((local_cstr off).map g).confined_iff, Option.isSome_map, cstr_span_nil]
  split
  · rename_i h
    simpa using h
  · rename_i h
    simpa using h

/-- The message of an error stands behind its code: a NUL at its end is enough. -/
theorem confined_error {α : Type} (g : Bytes → Bytes → α) (pl : Bytes) :
    Confined (fun p => (read p 0 2).bind fun code => (cstr p 3).map (g code)) pl ↔
      0 ∈ pl.drop 3 := by
  have hlocal : Local fun p => (read p 0 2).bind fun code => (cstr p 3).map (g code) :=
    .bind (local_read 0 2) fun code => (local_cstr 3).map (g code)
  rw [hlocal.confined_iff]
  by_cases hnul : 0 ∈ pl.drop 3
  · have hlen : 3 < pl.length := by
      have := List.length_pos_of_mem hnul
      rw [List.length_drop] at this
      omega
    simp [read_span (show 0 + 2 ≤ pl.length by omega), cstr_span_nil, hnul]
  · cases h : read (span pl []) 0 2 with
    | none => simp [hnul]
    | some code => simp [cstr_span_nil, hnul]

theorem confined_some {α : Type} (r : α) (pl : Bytes) : Confined (fun _ => some r) pl :=
  ⟨r, fun _ => rfl⟩

/-! ### The frames -/

theorem confined_appHandleFrame (w : World) (io : Io) (type : UInt8) (pl : Bytes) :
    Confined (fun p => w.appHandleFrame io type p pl.length) pl ↔ AppConfined type pl := by
  unfold World.appHandleFrame AppConfined
  by_cases hserver : type = msgServerMsg
  · subst hserver
    simp only [if_pos, confined_cstr_map]
    simp
  by_cases htext : type = msgChat ∨ type = msgPriv ∨ type = msgGmsg
  · simp only [if_neg hserver, if_pos htext, confined_cstr_map]
    rcases htext with rfl | rfl | rfl <;> simp
  by_cases herror : type = msgError
  · subst herror
    simp only [if_neg hserver, if_neg htext, if_pos]
    by_cases h3 : pl.length ≥ 3
    · simp only [if_pos h3, confined_error]
      simp [show ¬ pl.length < 3 by omega]
    · simp only [if_neg h3]
      simp [confined_some, show pl.length < 3 by omega]
  by_cases husers : type = msgOnlineUsers
  · subst husers
    simp only [if_neg hserver, if_neg htext, if_neg herror, if_pos,
      confined_uiDisplayOnlineUsers]
    simp
  -- no other frame is read beyond its payload, whatever is in it
  simp only [if_neg hserver, if_neg htext, if_neg herror, if_neg husers]
  have hcond : (type = msgServerMsg ∨ type = msgChat ∨ type = msgPriv ∨ type = msgGmsg →
      0 ∈ pl) ∧ (type = msgError → pl.length < 3 ∨ 0 ∈ pl.drop 3) ∧
      (type = msgOnlineUsers → 2 ≤ pl.length ∧ ¬ OpenName (utilsReadU16Be pl) (pl.drop 4)) :=
    ⟨fun h => (h.elim hserver htext).elim, fun h => (herror h).elim, fun h => (husers h).elim⟩
  refine iff_of_true ?_ hcond
  split_ifs
  · exact ⟨_, w.fileHandleFrame_span io type pl⟩
  · exact confined_some _ _

theorem confined_loginHandleFrame (w : World) (type : UInt8) (pl : Bytes) :
    Confined (fun p => w.loginHandleFrame type p) pl ↔ LoginConfined type pl := by
  unfold World.loginHandleFrame LoginConfined
  by_cases hserver : type = msgServerMsg
  · subst hserver
    simp only [if_pos, confined_cstr_map]
    simp
  by_cases herror : type = msgError
  · subst herror
    simp only [if_neg hserver, if_pos, confined_error]
    simp
  · simp only [if_neg hserver, if_neg herror]
    exact iff_of_true (confined_some _ _) ⟨fun h => (hserver h).elim, fun h => (herror h).elim⟩

/-! ### Frames in the read buffer -/

/-- `app_handle_frame` as the handler of the event loop; `none` once a frame has been left.  The
    second component is what the environment answers to the frames still to come. -/
def appHandler : Handler (Option World × (Nat → Io)) := fun s type payload plen =>
  (s.1.bind fun w => w.appHandleFrame (s.2 0) type payload plen, fun n => s.2 (n + 1))

/-- A confined frame is handled alone. -/
theorem handledAlone_of_appConfined {frame : UInt8 × Bytes}
    (h : AppConfined frame.1 frame.2) : HandledAlone appHandler frame := by
  intro s rest
  obtain ⟨w | w, ios⟩ := s
  · rfl
  · obtain ⟨w', hw'⟩ := (confined_appHandleFrame w (ios 0) frame.1 frame.2).mpr h
    simp only [appHandler, Option.bind_some, hw']

/-- **A buffer of confined frames** has the effect of its frames, whatever they stand next to. -/
theorem appDispatch_state_of_appConfined (app : App (Option World × (Nat → Io)))
    (h : ∀ frame ∈ (Feed.whole protocolParse app.rbuf).items, AppConfined frame.1 frame.2) :
    (appDispatch appHandler app).state =
      handleAll appHandler app.state (Feed.whole protocolParse app.rbuf).items :=
  appDispatch_state appHandler app fun frame hmem => handledAlone_of_appConfined (h frame hmem)

/-- **Payload confinement**: a frame is handled without a read outside its payload exactly when
    `AppConfined`, during the login `LoginConfined`, holds of it. -/
theorem frame_confined_iff (w : World) (io : Io) (type : UInt8) (pl : Bytes) :
    (Confined (fun p => w.appHandleFrame io type p pl.length) pl ↔ AppConfined type pl) ∧
      (Confined (fun p => w.loginHandleFrame type p) pl ↔ LoginConfined type pl) :=
  ⟨confined_appHandleFrame w io type pl, confined_loginHandleFrame w type pl⟩

/-- A chat text without its NUL is printed with the frame behind it; an empty error frame
    during the login is read through a null pointer. -/
theorem chat_without_nul_leaves_payload :
    ¬ Confined (fun p => (World.init fun _ => none).appHandleFrame Io.ok msgChat p 1) [65] ∧
      (World.init fun _ => none).appHandleFrame Io.ok msgChat (span [65] [66, 0]) 1 =
        some ((World.init fun _ => none).displayIncoming [65, 66]) ∧
      (World.init fun _ => none).loginHandleFrame msgError (span [] []) = none := by
  refine ⟨?_, rfl, rfl⟩
  rintro ⟨r, hr⟩
  have hnone : none = some r := hr []
  exact absurd hnone (by simp)

end TCPClient
