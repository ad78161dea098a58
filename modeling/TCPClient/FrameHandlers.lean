import TCPClient.FileModule

namespace TCPClient

open Octets Memory

/-!
# `app.c` and `ui.c` — what is done with a frame and after a timeout

`app_handle_frame`, the frame part of `login_loop` and the tick of `app_run`, with the functions
of `ui.c` they call.  A handler gets the payload as a pointer into the read buffer; `none` is a
read outside the readable memory, a NULL text handed to `printf` included.
-/

namespace World

/-! ### `ui.c` -/

/-- `ui_print_error`: the line has room for 1023 bytes, the message is read to its NUL. -/
def uiPrintError (w : World) (code : Nat) (message : Bytes) : World :=
  w.displayIncoming ((utf8 "错误(" ++ (decimal code ++ (utf8 "): " ++ message))).take 1023)

/-- The loop of `ui_display_online_users` at offset `i` with `users` written so far; a name that
    does not fit is left out. -/
def onlineUsersLoop (payload : Ptr) (plen count : Nat) :
    Nat → Nat → Nat → Bytes → Option Bytes
  | 0, _, _, users => some users
  | fuel + 1, i, seen, users =>
    if i < plen ∧ seen < count then
      (cstr payload i).bind fun name =>
        if name = [] then some users
        else
          onlineUsersLoop payload plen count fuel (i + name.length + 1) (seen + 1)
            (if users.length + name.length + 2 < 1024 then
              (if seen > 0 then users ++ [32] else users) ++ name
            else users)
    else some users

/-- `ui_display_online_users`: every round of the loop counts one name. -/
def uiDisplayOnlineUsers (w : World) (payload : Ptr) (plen : Nat) : Option World :=
  (read payload 0 2).bind fun head =>
    let count := utilsReadU16Be head
    (onlineUsersLoop payload plen count count 4 0 []).map fun users =>
      w.displayIncoming
        ((utf8 "在线用户(" ++ (decimal count ++ (utf8 "): " ++ users))).take 1087)

/-! ### `app.c` -/

/-- A hexadecimal digit, upper case. -/
def hexDigit (n : Nat) : UInt8 := if n < 10 then UInt8.ofNat (48 + n) else UInt8.ofNat (55 + n)

/-- `app_handle_frame`. -/
def appHandleFrame (w : World) (io : Io) (type : UInt8) (payload : Ptr) (plen : Nat) :
    Option World :=
  if type = msgServerMsg then
    (cstr payload 0).map fun text => (w.displayIncoming text).fileHandleAnnouncement io text
  else if type = msgChat ∨ type = msgPriv ∨ type = msgGmsg then
    (cstr payload 0).map fun text => w.displayIncoming text
  else if type = msgError then
    if plen ≥ 3 then
      (read payload 0 2).bind fun code =>
        (cstr payload 3).map fun message =>
          (w.uiPrintError (utilsReadU16Be code) message).fileHandleError io
            (utilsReadU16Be code)
    else some w
  else if type = msgOnlineUsers then w.uiDisplayOnlineUsers payload plen
  else if type = msgFileInit ∨ type = msgFileAccept ∨ type = msgFileReject ∨
      type = msgFileChunk ∨ type = msgFileComplete ∨ type = msgFileCancel then
    w.fileHandleFrame io type payload plen
  else
    some (w.print (utf8 "收到未处理的消息类型 0x" ++
      [hexDigit (type.toNat / 16), hexDigit (type.toNat % 16)]))

/-- `outcome` in `login_loop`. -/
inductive LoginOutcome where
  | waiting
  | loggedIn
  | retry
  deriving DecidableEq, Repr

/-- What `login_loop` does with a frame; the length is not looked at. -/
def loginHandleFrame (w : World) (type : UInt8) (payload : Ptr) : Option (World × LoginOutcome) :=
  if type = msgServerMsg then
    (cstr payload 0).map fun text => (w.displayIncoming text, .loggedIn)
  else if type = msgError then
    (read payload 0 2).bind fun code =>
      (cstr payload 3).map fun message =>
        (w.uiPrintError (utilsReadU16Be code) message, .retry)
  else some (w, .waiting)

/-- What `app_run` does when `poll` timed out; `false` leaves the loop. -/
def appTick (w : World) (io : TickIo) : World × Bool :=
  if w.fileSendActive then
    match w.fileSendTick io with
    | (w, .ok) => (w, true)
    | (w, .lost) => (w, false)
  else (w, true)

/-- For the file module every timeout is a tick: the one that is skipped would do nothing. -/
theorem appTick_eq (w : World) (io : TickIo) :
    w.appTick io = ((w.fileSendTick io).1, decide ((w.fileSendTick io).2 = .ok)) := by
  unfold appTick
  split_ifs with hactive
  · generalize w.fileSendTick io = res
    obtain ⟨w', status⟩ := res
    cases status <;> rfl
  · -- the two guards of `file_send_tick` are those of `file_send_active`
    rw [fileSendTick]
    by_cases hbusy : w.send.busy = true
    · have hidle : w.send.state ≠ .active ∧ w.send.state ≠ .done := by
        simpa [fileSendActive, hbusy] using hactive
      rw [if_neg (not_not_intro hbusy), if_pos hidle]
      rfl
    · rw [if_pos hbusy]
      rfl

end World
end TCPClient
