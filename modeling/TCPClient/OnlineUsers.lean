import TCPClient.Confinement

namespace TCPClient

open Octets Memory

/-!
# `ui_display_online_users` — is the list complete?

The names of a MSG_ONLINE_USERS payload go through `users[1024]` into one line.  A name that does
not fit is left out without a word, although it is counted in the text in front.
`uiDisplayOnlineUsersStored` is the function with its writes checked, and
`online_list_complete_iff` says for which lists every name is shown.
-/

/-! ### The function with its writes -/

namespace World

/-- What a name adds to `users`. -/
def addUser (seen : Nat) (users name : Bytes) : Bytes :=
  if users.length + name.length + 2 < 1024 then
    (if seen > 0 then users ++ [32] else users) ++ name
  else users

/-- The writes of one round of the loop to `users[1024]`. -/
def storeUser (seen : Nat) (users name : Bytes) : Option Bytes :=
  if users.length + name.length + 2 < 1024 then
    (if seen > 0 then store 1024 users [32] else some users).bind fun users =>
      store 1024 users name
  else some users

/-- `onlineUsersLoop` with checked writes. -/
def onlineUsersStored (payload : Ptr) (plen count : Nat) :
    Nat → Nat → Nat → Bytes → Option Bytes
  | 0, _, _, users => some users
  | fuel + 1, i, seen, users =>
    if i < plen ∧ seen < count then
      (cstr payload i).bind fun name =>
        if name = [] then some users
        else
          (storeUser seen users name).bind fun users =>
            onlineUsersStored payload plen count fuel (i + name.length + 1) (seen + 1) users
    else some users

/-- `ui_display_online_users` with checked writes, the NUL behind the names included; `snprintf`
    stops at the end of `line[1088]` by itself. -/
def uiDisplayOnlineUsersStored (w : World) (payload : Ptr) (plen : Nat) : Option World :=
  (read payload 0 2).bind fun head =>
    let count := utilsReadU16Be head
    (onlineUsersStored payload plen count count 4 0 []).bind fun users =>
      (store 1024 users [0]).map fun _ =>
        w.displayIncoming
          ((utf8 "在线用户(" ++ (decimal count ++ (utf8 "): " ++ users))).take 1087)

theorem onlineUsersLoop_succ (payload : Ptr) (plen count fuel i seen : Nat) (users : Bytes) :
    onlineUsersLoop payload plen count (fuel + 1) i seen users =
      if i < plen ∧ seen < count then
        (cstr payload i).bind fun name =>
          if name = [] then some users
          else
            onlineUsersLoop payload plen count fuel (i + name.length + 1) (seen + 1)
              (addUser seen users name)
      else some users := rfl

/-- A name that passes the fit test fits with its separator. -/
theorem length_addUser {seen : Nat} {users name : Bytes} (h : users.length ≤ 1022) :
    (addUser seen users name).length ≤ 1022 := by
  unfold addUser
  split_ifs
  · simp only [List.length_append, List.length_singleton]
    omega
  · simp only [List.length_append]
    omega
  · exact h

theorem storeUser_eq {seen : Nat} {users name : Bytes} :
    storeUser seen users name = some (addUser seen users name) := by
  unfold storeUser addUser
  split_ifs with hfit hseen
  · rw [store_eq (by rw [List.length_singleton]; omega), Option.bind_some, store_eq]
    rw [List.length_append, List.length_singleton]
    omega
  · rw [Option.bind_some, store_eq (by omega)]
  · rfl

theorem onlineUsersStored_eq (payload : Ptr) (plen count fuel i seen : Nat) (users : Bytes) :
    onlineUsersStored payload plen count fuel i seen users =
      onlineUsersLoop payload plen count fuel i seen users := by
  induction fuel generalizing i seen users with
  | zero => rfl
  | succ fuel ih =>
    rw [onlineUsersLoop_succ, onlineUsersStored]
    simp only [storeUser_eq, Option.bind_some, ih]

theorem length_onlineUsersLoop {payload : Ptr} {plen count fuel i seen : Nat}
    {users result : Bytes} (hlen : users.length ≤ 1022)
    (h : onlineUsersLoop payload plen count fuel i seen users = some result) :
    result.length ≤ 1022 := by
  induction fuel generalizing i seen users with
  | zero => rwa [← Option.some.inj h]
  | succ fuel ih =>
    rw [onlineUsersLoop_succ] at h
    split_ifs at h with hmore
    · obtain ⟨name, -, hnext⟩ := Option.bind_eq_some_iff.mp h
      split_ifs at hnext with hempty
      · rwa [← Option.some.inj hnext]
      · exact ih (length_addUser hlen) hnext
    · rwa [← Option.some.inj h]

/-- **The writes stay inside the buffers**, whatever the payload is. -/
theorem uiDisplayOnlineUsersStored_eq (w : World) (payload : Ptr) (plen : Nat) :
    w.uiDisplayOnlineUsersStored payload plen = w.uiDisplayOnlineUsers payload plen := by
  unfold uiDisplayOnlineUsersStored uiDisplayOnlineUsers
  congr 1
  funext head
  dsimp only
  rw [onlineUsersStored_eq]
  cases hloop : onlineUsersLoop payload plen (utilsReadU16Be head) (utilsReadU16Be head) 4 0 []
    with
  | none => rfl
  | some users =>
    have hlen := length_onlineUsersLoop (Nat.zero_le _) hloop
    rw [Option.bind_some, store_eq (by rw [List.length_singleton]; omega)]
    rfl

end World

/-! ### The server's layout -/

/-- A MSG_ONLINE_USERS payload: the count, two reserved bytes, the names with their NULs. -/
def onlineUsersPayload (names : List Bytes) : Bytes :=
  utilsWriteU16Be names.length ++ ([0, 0] ++ names.flatMap fun name => name ++ [0])

/-- Names the server can list: user names, in a payload that fits a frame. -/
structure OnlineNames (names : List Bytes) : Prop where
  name : ∀ name ∈ names, name ≠ [] ∧ name.length ≤ 31 ∧ 0 ∉ name
  fits : (onlineUsersPayload names).length ≤ 65535

/-- The names separated by single spaces. -/
def spacedNames (names : List Bytes) : Bytes := [32].intercalate names

theorem spacedNames_cons (name : Bytes) (names : List Bytes) :
    spacedNames (name :: names) = name ++ names.flatMap fun name => 32 :: name := by
  unfold spacedNames
  induction names generalizing name with
  | nil => simp [List.intercalate]
  | cons next names ih =>
    rw [List.intercalate_cons_cons, ih]
    simp

/-- What the loop makes of the names from number `seen` on. -/
def addUsers (seen : Nat) (users : Bytes) : List Bytes → Bytes
  | [] => users
  | name :: names => addUsers (seen + 1) (World.addUser seen users name) names

theorem length_addUsers {seen : Nat} {users : Bytes} (names : List Bytes)
    (h : users.length ≤ 1022) : (addUsers seen users names).length ≤ 1022 := by
  induction names generalizing seen users with
  | nil => exact h
  | cons name names ih => exact ih (World.length_addUser h)

/-- **Run lemma.** On a payload of names the loop adds them one after the other. -/
theorem onlineUsersLoop_names {pl : Bytes} (rest : Bytes) {names : List Bytes}
    {count i seen : Nat} {users : Bytes} (hnames : ∀ name ∈ names, name ≠ [] ∧ 0 ∉ name)
    (hpl : pl.drop i = names.flatMap fun name => name ++ [0])
    (hcount : count = seen + names.length) :
    World.onlineUsersLoop (span pl rest) pl.length count names.length i seen users =
      some (addUsers seen users names) := by
  induction names generalizing i seen users with
  | nil => rfl
  | cons name names ih =>
    rw [List.length_cons] at hcount ⊢
    obtain ⟨hne, hnul⟩ := hnames name List.mem_cons_self
    have hname : pl.drop i = name ++ 0 :: names.flatMap fun name => name ++ [0] := by
      rw [hpl, List.flatMap_cons, List.append_assoc, List.singleton_append]
    obtain ⟨hnext, -, hin⟩ := drop_behind_field hname
    rw [World.onlineUsersLoop_succ, if_pos ⟨by omega, by omega⟩, cstr_span hname hnul,
      Option.bind_some, if_neg hne]
    exact ih (fun other hmem => hnames other (List.mem_cons_of_mem name hmem)) hnext (by omega)

/-- As long as everything fits nothing is left out. -/
theorem addUsers_fits {seen : Nat} {users : Bytes} {names : List Bytes} (hseen : 0 < seen)
    (h : (users ++ names.flatMap fun name => 32 :: name).length ≤ 1022) :
    addUsers seen users names = users ++ names.flatMap fun name => 32 :: name := by
  induction names generalizing seen users with
  | nil => simp [addUsers]
  | cons name names ih =>
    have hadd : World.addUser seen users name = users ++ 32 :: name := by
      simp only [List.flatMap_cons, List.length_append, List.length_cons] at h
      rw [World.addUser, if_pos (by omega), if_pos hseen, List.append_assoc,
        List.singleton_append]
    have hassoc : users ++ (name :: names).flatMap (fun name => 32 :: name) =
        (users ++ 32 :: name) ++ names.flatMap fun name => 32 :: name := by
      rw [List.flatMap_cons, List.append_assoc]
    rw [addUsers, hadd, hassoc]
    exact ih (Nat.succ_pos seen) (hassoc ▸ h)

theorem addUsers_eq_spacedNames {names : List Bytes} (hnames : ∀ name ∈ names, name.length ≤ 31)
    (h : (spacedNames names).length ≤ 1022) : addUsers 0 [] names = spacedNames names := by
  cases names with
  | nil => rfl
  | cons name names =>
    -- the first name always fits, and has no separator
    have hfirst : World.addUser 0 [] name = name := by
      have hlen := hnames name List.mem_cons_self
      rw [World.addUser, List.length_nil, if_pos (by omega), if_neg (by omega), List.nil_append]
    rw [spacedNames_cons] at h ⊢
    rw [addUsers, hfirst]
    exact addUsers_fits Nat.one_pos h

/-- The text in front of the names. -/
def onlineUsersHeader (count : Nat) : Bytes := utf8 "在线用户(" ++ (decimal count ++ utf8 "): ")

theorem drop_onlineUsersPayload (names : List Bytes) :
    (onlineUsersPayload names).drop 4 = names.flatMap fun name => name ++ [0] := by
  rw [onlineUsersPayload, ← List.append_assoc]
  exact List.drop_left' (by simp)

theorem length_le_flatMap_nul (names : List Bytes) :
    names.length ≤ (names.flatMap fun name => name ++ [0]).length := by
  induction names with
  | nil => simp
  | cons name names ih =>
    rw [List.flatMap_cons, List.length_append, List.length_append, List.length_cons,
      List.length_singleton]
    omega

/-- The count of a payload that fits a frame fits its field. -/
theorem OnlineNames.count_lt {names : List Bytes} (h : OnlineNames names) :
    names.length < 2 ^ 16 := by
  have hfits := h.fits
  have hcount := length_le_flatMap_nul names
  rw [← drop_onlineUsersPayload, List.length_drop] at hcount
  omega

theorem OnlineNames.read_count {names : List Bytes} (h : OnlineNames names) :
    utilsReadU16Be (((onlineUsersPayload names).drop 0).take 2) = names.length := by
  have hread := utilsReadU16Be_write names.length []
  rw [List.append_nil, Nat.mod_eq_of_lt h.count_lt] at hread
  rwa [List.drop_zero, onlineUsersPayload, List.take_left' (length_utilsWriteU16Be _)]

/-- The line has room for the text in front and 1022 bytes of names. -/
theorem take_line {count : Nat} (hcount : count < 2 ^ 16) {users : Bytes}
    (husers : users.length ≤ 1022) :
    (utf8 "在线用户(" ++ (decimal count ++ (utf8 "): " ++ users))).take 1087 =
      onlineUsersHeader count ++ users := by
  have hdigits : (decimal count).length ≤ 5 := length_decimal_le (by decide) (by omega)
  have hfront : (utf8 "在线用户(").length = 13 := by decide
  have hback : (utf8 "): ").length = 3 := by decide
  rw [onlineUsersHeader, List.append_assoc, List.append_assoc]
  apply List.take_of_length_le
  simp only [List.length_append]
  omega

/-- What is displayed for a payload in the server's layout. -/
theorem uiDisplayOnlineUsers_names (w : World) {names : List Bytes} (h : OnlineNames names)
    (rest : Bytes) :
    w.uiDisplayOnlineUsers (span (onlineUsersPayload names) rest)
        (onlineUsersPayload names).length =
      some (w.displayIncoming (onlineUsersHeader names.length ++ addUsers 0 [] names)) := by
  have hhead : 0 + 2 ≤ (onlineUsersPayload names).length := by simp [onlineUsersPayload]
  have hloop : World.onlineUsersLoop (span (onlineUsersPayload names) rest)
      (onlineUsersPayload names).length names.length names.length 4 0 [] =
      some (addUsers 0 [] names) :=
    onlineUsersLoop_names rest (fun name hmem => ⟨(h.name name hmem).1, (h.name name hmem).2.2⟩)
      (drop_onlineUsersPayload names) (Nat.zero_add _).symm
  rw [World.uiDisplayOnlineUsers, read_span hhead, Option.bind_some, h.read_count]
  dsimp only
  rw [hloop, Option.map_some, take_line h.count_lt (length_addUsers names (Nat.zero_le _))]

/-- The line shows every name, in order, separated by single spaces: no write leaves a buffer,
    the loop ends, and the names stand behind the text in front. -/
def ListsAllUsers (w : World) (names : List Bytes) (rest : Bytes) : Prop :=
  ∃ users, w.uiDisplayOnlineUsersStored (span (onlineUsersPayload names) rest)
        (onlineUsersPayload names).length =
      some (w.displayIncoming (onlineUsersHeader names.length ++ users)) ∧
    spacedNames names <:+: users

theorem displayIncoming_inj {w : World} {s t : Bytes}
    (h : w.displayIncoming s = w.displayIncoming t) : s = t := by
  have hlog := congrArg World.log h
  simpa [World.displayIncoming, World.emit] using hlog

/-- The names are all shown exactly when they and their separators take at most 1022 bytes. -/
theorem spaced_infix_iff {names : List Bytes} (hnames : ∀ name ∈ names, name.length ≤ 31) :
    spacedNames names <:+: addUsers 0 [] names ↔ (spacedNames names).length ≤ 1022 := by
  constructor
  · intro h
    exact le_trans h.length_le (length_addUsers names (Nat.zero_le _))
  · intro h
    exact ⟨[], [], by simp [addUsers_eq_spacedNames hnames h]⟩

theorem listsAllUsers_iff (w : World) {names : List Bytes} (h : OnlineNames names)
    (rest : Bytes) : ListsAllUsers w names rest ↔ (spacedNames names).length ≤ 1022 := by
  rw [← spaced_infix_iff fun name hmem => (h.name name hmem).2.1]
  unfold ListsAllUsers
  rw [World.uiDisplayOnlineUsersStored_eq, uiDisplayOnlineUsers_names w h rest]
  constructor
  · rintro ⟨users, hline, hall⟩
    rwa [List.append_cancel_left (displayIncoming_inj (Option.some.inj hline))]
  · intro hall
    exact ⟨_, rfl, hall⟩

/-- **The online list is complete exactly when its names fit**: for every payload in the server's
    layout the function ends and stays inside its buffers, and it lists all users if and only if
    the names with single spaces between them have at most 1022 bytes. -/
theorem online_list_complete_iff {names : List Bytes} (h : OnlineNames names) (w : World)
    (rest : Bytes) :
    (∃ users, w.uiDisplayOnlineUsersStored (span (onlineUsersPayload names) rest)
          (onlineUsersPayload names).length =
        some (w.displayIncoming (onlineUsersHeader names.length ++ users)) ∧
      users.length ≤ 1022) ∧
    (ListsAllUsers w names rest ↔ (spacedNames names).length ≤ 1022) := by
  refine ⟨⟨addUsers 0 [] names, ?_, length_addUsers names (Nat.zero_le _)⟩,
    listsAllUsers_iff w h rest⟩
  rw [World.uiDisplayOnlineUsersStored_eq, uiDisplayOnlineUsers_names w h rest]

/-- Two users are listed. -/
theorem online_list_complete_two :
    ListsAllUsers (World.init fun _ => none) [utf8 "ann", utf8 "bob"] [] := by
  have hnames : OnlineNames [utf8 "ann", utf8 "bob"] := ⟨by decide, by decide⟩
  exact (online_list_complete_iff hnames _ []).2.mpr (by decide)

/-- Thirty-two users with names of 31 bytes. -/
def fullNames : List Bytes :=
  (List.range 32).map fun i =>
    List.replicate 29 97 ++ [UInt8.ofNat (48 + i / 10), UInt8.ofNat (48 + i % 10)]

/-- One of the thirty-two is left out. -/
theorem online_list_incomplete :
    OnlineNames fullNames ∧ ¬ ListsAllUsers (World.init fun _ => none) fullNames [] := by
  have hnames : OnlineNames fullNames := ⟨by decide +kernel, by decide +kernel⟩
  have hlong : ¬ (spacedNames fullNames).length ≤ 1022 := by decide +kernel
  exact ⟨hnames, mt (listsAllUsers_iff _ hnames []).mp hlong⟩

end TCPClient
