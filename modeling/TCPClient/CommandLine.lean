import TCPClient.SendInvariant

namespace TCPClient

open Octets

/-!
# `commands.c` — `commands_handle_line`

One input line makes the client do one thing.  `commandsHandleLine` is the dispatch over the
commands; `LineFrame` says which frame a line calls for, in terms of the line itself, and
`handleLine_wellFormed` that no other frame is sent, that it always fits its buffer, and that
the parser gives it back.
-/

/-- What the outside answers while a line is handled. -/
structure LineIo where
  sendOk : Bool
  sendfile : SendfileIo
  file : Io

/-- What is left after a line: the state, the return value, and `*quit_out`. -/
structure LineResult where
  world : World
  status : Status
  quit : Bool

/-- `strncmp(line, word, n) == 0`, and the word ends at a blank or at the end of the line. -/
def isCommand (word line : Bytes) : Bool :=
  word.isPrefixOf line &&
    match line.drop word.length with
    | [] => true
    | b :: _ => decide (IsBlank b)

/-- The lines of `ui_print_help`. -/
def helpLines : List Bytes :=
  [utf8 "可用命令:",
    utf8 "  /gcreate <群名>      创建群组",
    utf8 "  /gjoin <群名>        加入群组",
    utf8 "  /gleave <群名>       离开群组",
    utf8 "  /gmsg <群名> <消息>  群聊消息",
    utf8 "  /priv <用户> <消息>  发送私聊消息",
    utf8 "  /sendfile <用户> <文件>  发送文件",
    utf8 "  /accept <tid>       接受文件",
    utf8 "  /reject <tid>       拒绝文件",
    utf8 "  /cancel <tid>       取消传输",
    utf8 "  /users              刷新在线用户列表",
    utf8 "  /login              重新登录（换用户名/密码）",
    utf8 "  /help               显示本帮助",
    utf8 "  /quit               退出客户端",
    utf8 "  其他输入            作为大厅聊天消息发送"]

namespace World

/-- `ui_print_help`. -/
def uiPrintHelp (w : World) : World := helpLines.foldl print w

/-- A builder's result handed to `conn_send_all`; `-1` from either is `-1`. -/
def sendBuilt (w : World) (sendOk : Bool) : Option Bytes → World × Status
  | none => (w, .lost)
  | some frame =>
    match w.connSendAll frame sendOk with
    | (w, false) => (w, .lost)
    | (w, true) => (w, .ok)

/-- `cmd_send_single_name`. -/
def cmdSendSingleName (w : World) (sendOk : Bool) (msgType : UInt8) (arg usage : Bytes) :
    World × Status :=
  let name := skipBlanks arg
  if name = [] then (w.print usage, .ok)
  else if name.length ≥ maxGroupNameLen then (w.print (utf8 "群名过长（上限 31 字符）"), .ok)
  else w.sendBuilt sendOk (protocolBuildText1 msgType name (protoHeaderSize + maxGroupNameLen))

/-- The `/priv` branch. -/
def cmdPriv (w : World) (sendOk : Bool) (line : Bytes) : World × Status :=
  match commandsParsePriv line maxUsernameLen with
  | none => (w.print (utf8 "用法: /priv <用户名> <消息>"), .ok)
  | some (target, msg) =>
    w.sendBuilt sendOk (protocolBuildText2 msgPriv target msg
      (protoHeaderSize + maxMessageLen + maxUsernameLen + 1))

/-- The `/gmsg` branch. -/
def cmdGmsg (w : World) (sendOk : Bool) (line : Bytes) : World × Status :=
  match commandsParseGmsg line maxGroupNameLen with
  | none => (w.print (utf8 "用法: /gmsg <群名> <消息>"), .ok)
  | some (group, msg) =>
    w.sendBuilt sendOk (protocolBuildText2 msgGmsg group msg
      (protoHeaderSize + maxMessageLen + maxGroupNameLen + 1))

/-- The commands that `commands_handle_line` compares behind `/login`. -/
def handleCommand (w : World) (io : LineIo) (line : Bytes) : World × Status :=
  if isCommand (utf8 "/priv") line then w.cmdPriv io.sendOk line
  else if line = utf8 "/users" then
    w.sendBuilt io.sendOk (protocolBuildFrame msgUsers [] 0 protoHeaderSize)
  else if isCommand (utf8 "/gcreate") line then
    w.cmdSendSingleName io.sendOk msgGcreate (line.drop 8) (utf8 "用法: /gcreate <群名>")
  else if isCommand (utf8 "/gjoin") line then
    w.cmdSendSingleName io.sendOk msgGjoin (line.drop 6) (utf8 "用法: /gjoin <群名>")
  else if isCommand (utf8 "/gleave") line then
    w.cmdSendSingleName io.sendOk msgGleave (line.drop 7) (utf8 "用法: /gleave <群名>")
  else if isCommand (utf8 "/gmsg") line then w.cmdGmsg io.sendOk line
  else if isCommand (utf8 "/sendfile") line then w.fileCmdSendfile io.sendfile line
  else if isCommand (utf8 "/accept") line then w.fileCmdAccept io.file line
  else if isCommand (utf8 "/reject") line then w.fileCmdReject io.file line
  else if isCommand (utf8 "/cancel") line then w.fileCmdCancel io.file line
  else
    -- `char msg[128]`
    (w.print ((utf8 "未知命令: " ++ (line ++ utf8 "（输入 /help 查看帮助）")).take 127), .ok)

/-- `commands_login` behind its prompts, from the names it read; `none` is the end of the
    input. -/
def commandsLogin (w : World) (sendOk : Bool) : Option (Bytes × Bytes) → World × Status
  | none => (w, .lost)
  | some (user, pass) =>
    w.sendBuilt sendOk (protocolBuildText2 msgAuth user pass
      (protoHeaderSize + maxUsernameLen + maxPasswordLen))

@[simp] theorem tasks_commandsLogin (w : World) (sendOk : Bool) (names : Option (Bytes × Bytes)) :
    (w.commandsLogin sendOk names).1.tasks = w.tasks := by
  cases names with
  | none => rfl
  | some names =>
    rw [commandsLogin]
    unfold sendBuilt
    split
    · rfl
    · cases sendOk <;> rfl

/-- `commands_handle_line`; `login` is what `commands_login` makes of the prompts. -/
def commandsHandleLine (w : World) (io : LineIo) (line : Bytes) (login : World × Status) :
    LineResult :=
  match line with
  | [] => ⟨w, .ok, false⟩
  | b :: _ =>
    if b = 47 then
      if line = utf8 "/quit" then ⟨w, .ok, true⟩
      else if line = utf8 "/help" then ⟨w.uiPrintHelp, .ok, false⟩
      else if line = utf8 "/login" then ⟨login.1, login.2, false⟩
      else ⟨(w.handleCommand io line).1, (w.handleCommand io line).2, false⟩
    else
      -- bare text goes to the lobby
      let res := w.sendBuilt io.sendOk
        (protocolBuildText1 msgChat line (protoHeaderSize + maxMessageLen + 1))
      ⟨res.1, res.2, false⟩

theorem quit_commandsHandleLine (w : World) (io : LineIo) (login : World × Status) {line : Bytes}
    (h : line ≠ utf8 "/quit") : (w.commandsHandleLine io line login).quit = false := by
  cases line with
  | nil => rfl
  | cons b rest =>
    rw [commandsHandleLine, if_neg h]
    split_ifs <;> rfl

end World

/-! ### The frame a line calls for -/

/-- The type and payload of the frame a line calls for: its arguments are there and fit,
    `/sendfile` can submit the file, and the commands on a transfer find it where they can answer
    it. -/
inductive LineFrame (w : World) (io : LineIo) (line : Bytes) : UInt8 → Bytes → Prop where
  | chat (hne : line ≠ []) (hbare : line.head? ≠ some 47) :
      LineFrame w io line msgChat (line ++ [0])
  | priv (target msg : Bytes) (hcmd : isCommand (utf8 "/priv") line)
      (hargs : NameText (line.drop 5) target msg) (hfits : target.length < maxUsernameLen) :
      LineFrame w io line msgPriv (target ++ [0] ++ msg ++ [0])
  | gmsg (group msg : Bytes) (hcmd : isCommand (utf8 "/gmsg") line)
      (hargs : NameText (line.drop 5) group msg) (hfits : group.length < maxGroupNameLen) :
      LineFrame w io line msgGmsg (group ++ [0] ++ msg ++ [0])
  | users (hcmd : line = utf8 "/users") : LineFrame w io line msgUsers []
  | gcreate (name : Bytes) (hcmd : isCommand (utf8 "/gcreate") line)
      (harg : OneText (line.drop 8) name) (hfits : name.length < maxGroupNameLen) :
      LineFrame w io line msgGcreate (name ++ [0])
  | gjoin (name : Bytes) (hcmd : isCommand (utf8 "/gjoin") line)
      (harg : OneText (line.drop 6) name) (hfits : name.length < maxGroupNameLen) :
      LineFrame w io line msgGjoin (name ++ [0])
  | gleave (name : Bytes) (hcmd : isCommand (utf8 "/gleave") line)
      (harg : OneText (line.drop 7) name) (hfits : name.length < maxGroupNameLen) :
      LineFrame w io line msgGleave (name ++ [0])
  | init (target filename : Bytes) (hcmd : isCommand (utf8 "/sendfile") line)
      (hargs : NameText (line.drop 9) target filename) (htarget : target.length < maxUsernameLen)
      (hfilename : filename.length < maxFilenameLen) (hidle : w.send.busy = false)
      (hfile : io.sendfile.fopenOk = true ∧ io.sendfile.seekEndOk = true ∧
        io.sendfile.seekSetOk = true) (hsize : 0 < io.sendfile.fsize) :
      LineFrame w io line msgFileInit
        (target ++ [0] ++ filename ++ [0] ++ decimal io.sendfile.fsize.toNat ++ [0])
  | accept (tid : Nat) (i : Slot) (hcmd : isCommand (utf8 "/accept") line)
      (harg : TidText (line.drop 7) tid) (hawaits : w.AwaitsUser tid i)
      (hown : ¬ w.RefusesAccept io.file tid) :
      LineFrame w io line msgFileAccept (utilsWriteU32Be tid)
  | autoReject (tid : Nat) (i : Slot) (hcmd : isCommand (utf8 "/accept") line)
      (harg : TidText (line.drop 7) tid) (hawaits : w.AwaitsUser tid i)
      (hown : w.RefusesAccept io.file tid) :
      LineFrame w io line msgFileReject (utilsWriteU32Be tid)
  | reject (tid : Nat) (i : Slot) (hcmd : isCommand (utf8 "/reject") line)
      (harg : TidText (line.drop 7) tid) (hfind : w.recvTaskFind tid = some i)
      (hidle : (w.recv i).fp = none) :
      LineFrame w io line msgFileReject (utilsWriteU32Be tid)
  | cancel (tid : Nat) (hcmd : isCommand (utf8 "/cancel") line)
      (harg : TidText (line.drop 7) tid) (hknown : w.KnowsTid tid) :
      LineFrame w io line msgFileCancel (utilsWriteU32Be tid)

/-- Whether the frame of a line goes out; every branch hands its own to `conn_send_all`. -/
def LineIo.answers (io : LineIo) (type : UInt8) : Bool :=
  if type = msgFileInit then io.sendfile.sendOk
  else if type ∈ [msgFileAccept, msgFileReject, msgFileCancel] then io.file.sendOk
  else io.sendOk

/-- The frame of a type and payload was handed to `conn_send_all`, and nothing else; the
    connection is reported lost only when the frame did not go out. -/
def Sends (w : World) (io : LineIo) (type : UInt8) (payload : Bytes) (res : World × Status) :
    Prop :=
  res.1.framesTried = w.framesTried ++ [(frameBytes type payload, io.answers type)] ∧
    (res.2 = .lost → io.answers type = false)

/-- A line sent nothing, without an error, or one frame that it calls for and that fits the
    header field. -/
def SendsCalled (w : World) (io : LineIo) (line : Bytes) (res : World × Status) : Prop :=
  (res.1.framesTried = w.framesTried ∧ res.2 = .ok) ∨
    ∃ type payload, LineFrame w io line type payload ∧ payload.length < 2 ^ 16 ∧
      Sends w io type payload res

namespace World

variable {w : World} {io : LineIo} {line : Bytes}

theorem sendsCalled_print (text : Bytes) : SendsCalled w io line (w.print text, .ok) :=
  Or.inl ⟨by simp, rfl⟩

theorem sends_sendBuilt (w : World) (io : LineIo) {built : Option Bytes} {type : UInt8}
    {payload : Bytes} (h : built = some (frameBytes type payload))
    (hio : io.answers type = io.sendOk) :
    Sends w io type payload (w.sendBuilt io.sendOk built) := by
  subst h
  rw [Sends, hio]
  cases io.sendOk with
  | false => exact ⟨by simp [sendBuilt, connSendAll, Effect.triedFrame], by simp⟩
  | true => exact ⟨by simp [sendBuilt, connSendAll, Effect.triedFrame],
      by simp [sendBuilt, connSendAll]⟩

/-- A text that leaves room for its NUL is framed whole. -/
theorem protocolBuildText1_eq (msgType : UInt8) {text : Bytes} (h : text.length + 1 < 2 ^ 16)
    {outCap : Int} (hcap : (5 + (text.length + 1) : Nat) ≤ outCap) :
    protocolBuildText1 msgType text outCap = some (frameBytes msgType (text ++ [0])) := by
  have hlen : (text ++ [0]).length = text.length + 1 := by simp
  have hcap' : (5 + (text ++ [0]).length : Nat) ≤ outCap := by simpa only [hlen] using hcap
  have hframe := protocolBuildFrame_eq ⟨msgType, text ++ [0], by rw [hlen]; exact h⟩ hcap'
  rw [protocolBuildText1, if_neg (by simp only [protoMaxPayload]; omega), Nat.mod_eq_of_lt h,
    ← hlen]
  exact hframe

/-- Two texts that fit with their NULs are framed whole. -/
theorem protocolBuildText2_eq (msgType : UInt8) {part1 part2 : Bytes}
    (h : part1.length + part2.length + 2 < 2 ^ 16) {outCap : Int}
    (hcap : (5 + (part1.length + part2.length + 2) : Nat) ≤ outCap) :
    protocolBuildText2 msgType part1 part2 outCap =
      some (frameBytes msgType (part1 ++ [0] ++ part2 ++ [0])) := by
  have hlen : (part1 ++ [0] ++ part2 ++ [0]).length = part1.length + part2.length + 2 := by
    simp only [List.length_append, List.length_singleton]
    omega
  exact buildPayload_eq ⟨msgType, part1 ++ [0] ++ part2 ++ [0], by rw [hlen]; exact h⟩
    (by simpa only [hlen] using hcap)

/-- The three commands on a group: a name that fits goes out as it is. -/
theorem cmdSendSingleName_sends {msgType : UInt8} {arg usage name : Bytes} (harg : OneText arg name)
    (hfits : name.length < maxGroupNameLen) (hio : io.answers msgType = io.sendOk) :
    Sends w io msgType (name ++ [0]) (w.cmdSendSingleName io.sendOk msgType arg usage) := by
  obtain ⟨b, rest, rfl, -⟩ := harg.text
  simp only [maxGroupNameLen] at hfits
  rw [cmdSendSingleName, harg.skipBlanks_eq, if_neg (by simp),
    if_neg (by simp only [maxGroupNameLen]; omega)]
  refine sends_sendBuilt w io (protocolBuildText1_eq msgType (by omega) ?_) hio
  simp only [protoHeaderSize, maxGroupNameLen]
  omega

theorem cmdSendSingleName_called {msgType : UInt8} {arg usage : Bytes}
    (hframe : ∀ name, OneText arg name → name.length < maxGroupNameLen →
      LineFrame w io line msgType (name ++ [0]))
    (hio : io.answers msgType = io.sendOk) :
    SendsCalled w io line (w.cmdSendSingleName io.sendOk msgType arg usage) := by
  by_cases hnil : skipBlanks arg = []
  · rw [cmdSendSingleName, if_pos hnil]
    exact sendsCalled_print _
  · by_cases hlong : (skipBlanks arg).length ≥ maxGroupNameLen
    · rw [cmdSendSingleName, if_neg hnil, if_pos hlong]
      exact sendsCalled_print _
    · have harg := oneText_skipBlanks hnil
      have hfits := not_le.mp hlong
      refine Or.inr ⟨msgType, _, hframe _ harg hfits, ?_, cmdSendSingleName_sends harg hfits hio⟩
      simp only [maxGroupNameLen] at hfits
      simp
      omega

theorem cmdPriv_sends {target msg : Bytes} (hlen : line.length ≤ 65534)
    (hargs : NameText (line.drop 5) target msg) (hfits : target.length < maxUsernameLen) :
    Sends w io msgPriv (target ++ [0] ++ msg ++ [0]) (w.cmdPriv io.sendOk line) := by
  have hsum := hargs.length_lt
  rw [List.length_drop] at hsum
  rw [cmdPriv, commandsParsePriv, hargs.parse_eq hfits]
  refine sends_sendBuilt w io (protocolBuildText2_eq msgPriv (by omega) ?_) rfl
  simp only [protoHeaderSize, maxMessageLen, maxUsernameLen]
  omega

theorem cmdPriv_called (hlen : line.length ≤ 65534) (hcmd : isCommand (utf8 "/priv") line) :
    SendsCalled w io line (w.cmdPriv io.sendOk line) := by
  cases hparse : commandsParsePriv line maxUsernameLen with
  | none =>
    rw [cmdPriv, hparse]
    exact sendsCalled_print _
  | some args =>
    obtain ⟨target, msg⟩ := args
    have hargs := nameText_of_parse hparse
    have hfits := parseNameText_length hparse
    have hsum := hargs.length_lt
    rw [List.length_drop] at hsum
    exact Or.inr ⟨_, _, .priv target msg hcmd hargs hfits, by simp; omega,
      cmdPriv_sends hlen hargs hfits⟩

theorem cmdGmsg_sends {group msg : Bytes} (hlen : line.length ≤ 65534)
    (hargs : NameText (line.drop 5) group msg) (hfits : group.length < maxGroupNameLen) :
    Sends w io msgGmsg (group ++ [0] ++ msg ++ [0]) (w.cmdGmsg io.sendOk line) := by
  have hsum := hargs.length_lt
  rw [List.length_drop] at hsum
  rw [cmdGmsg, commandsParseGmsg, hargs.parse_eq hfits]
  refine sends_sendBuilt w io (protocolBuildText2_eq msgGmsg (by omega) ?_) rfl
  simp only [protoHeaderSize, maxMessageLen, maxGroupNameLen]
  omega

theorem cmdGmsg_called (hlen : line.length ≤ 65534) (hcmd : isCommand (utf8 "/gmsg") line) :
    SendsCalled w io line (w.cmdGmsg io.sendOk line) := by
  cases hparse : commandsParseGmsg line maxGroupNameLen with
  | none =>
    rw [cmdGmsg, hparse]
    exact sendsCalled_print _
  | some args =>
    obtain ⟨group, msg⟩ := args
    have hargs := nameText_of_parse hparse
    have hfits := parseNameText_length hparse
    have hsum := hargs.length_lt
    rw [List.length_drop] at hsum
    exact Or.inr ⟨_, _, .gmsg group msg hcmd hargs hfits, by simp; omega,
      cmdGmsg_sends hlen hargs hfits⟩

/-- INIT goes out behind the registration; its payload fits the buffer. -/
theorem sendInit_sends {target filename : Bytes}
    (h : w.Submits io.sendfile line target filename) :
    Sends w io msgFileInit
      (target ++ [0] ++ filename ++ [0] ++ decimal io.sendfile.fsize.toNat ++ [0])
      ((w.emit (.fopenRead filename)).sendInit io.sendfile.sendOk target filename
        io.sendfile.fsize.toNat) := by
  -- the size is a `long`, so its digits fit the 32 bytes left for them
  have hlong := io.sendfile.fsizeLong
  have hio : io.answers msgFileInit = io.sendfile.sendOk := rfl
  unfold sendInit
  dsimp only
  rw [Sends, hio, protocolBuildText3_init h.parse (by omega)]
  cases io.sendfile.sendOk <;> simp [connSendAll, Effect.triedFrame, initFrame]

theorem sendfile_sends {target filename : Bytes}
    (h : w.Submits io.sendfile line target filename) :
    Sends w io msgFileInit
      (target ++ [0] ++ filename ++ [0] ++ decimal io.sendfile.fsize.toNat ++ [0])
      (w.fileCmdSendfile io.sendfile line) := by
  apply w.fileCmdSendfile_cases
  case refused => exact fun hnot => absurd h (hnot _ _)
  case givenUp => exact fun hnot => absurd h (hnot _ _)
  case submitted =>
    intro target' filename' h'
    obtain ⟨rfl, rfl⟩ := Prod.mk.inj (Option.some.inj (h.parse.symm.trans h'.parse))
    exact sendInit_sends h

theorem sendfile_called (w : World) (io : LineIo) (hcmd : isCommand (utf8 "/sendfile") line) :
    SendsCalled w io line (w.fileCmdSendfile io.sendfile line) := by
  apply w.fileCmdSendfile_cases
  case refused => exact fun _ _ text _ => sendsCalled_print text
  case givenUp =>
    intro _ _ filename text _
    exact Or.inl ⟨by simp [Effect.triedFrame], rfl⟩
  case submitted =>
    intro target filename h
    have hlong := io.sendfile.fsizeLong
    obtain ⟨htarget, hfilename⟩ := commandsParseSendfile_length h.parse
    have hdigits : (decimal io.sendfile.fsize.toNat).length ≤ 19 :=
      length_decimal_le (by decide) (by omega)
    refine Or.inr ⟨_, _, .init target filename hcmd (nameText_of_parseSendfile h.parse) htarget
      hfilename h.idle h.file h.size, ?_, sendInit_sends h⟩
    simp only [maxUsernameLen, maxFilenameLen] at htarget hfilename
    simp only [List.length_append, List.length_singleton]
    omega

/-- A control frame, as the frame of a line. -/
theorem Tries.sends {tid : Nat} {type : UInt8} {res : World × Status}
    (h : Tries type tid io.file.sendOk w res) (hio : io.answers type = io.file.sendOk) :
    Sends w io type (utilsWriteU32Be tid) res := by
  rw [← hio] at h
  exact h

theorem accept_called (w : World) (io : LineIo) (hcmd : isCommand (utf8 "/accept") line) :
    SendsCalled w io line (w.fileCmdAccept io.file line) := by
  unfold fileCmdAccept
  cases harg : commandsParseTidArg (line.drop 7) with
  | none => exact sendsCalled_print _
  | some tid =>
    have htid := tidText_of_parse harg
    rcases w.acceptTid_calls io.file tid with ⟨-, hsilent⟩ | ⟨i, hawaits, hrefused, haccepted⟩
    · exact Or.inl hsilent
    · -- `/accept` may turn out to be a REJECT
      by_cases hown : w.RefusesAccept io.file tid
      · exact Or.inr ⟨_, _, .autoReject tid i hcmd htid hawaits hown, by simp,
          (hrefused hown).sends rfl⟩
      · exact Or.inr ⟨_, _, .accept tid i hcmd htid hawaits hown, by simp,
          (haccepted hown).sends rfl⟩

theorem reject_called (w : World) (io : LineIo) (hcmd : isCommand (utf8 "/reject") line) :
    SendsCalled w io line (w.fileCmdReject io.file line) := by
  unfold fileCmdReject
  cases harg : commandsParseTidArg (line.drop 7) with
  | none => exact sendsCalled_print _
  | some tid =>
    rcases w.rejectTid_calls io.file tid with ⟨-, hsilent⟩ | ⟨i, hfind, hidle, htried⟩
    · exact Or.inl hsilent
    · exact Or.inr ⟨_, _, .reject tid i hcmd (tidText_of_parse harg) hfind hidle, by simp,
        htried.sends rfl⟩

theorem cancel_called (w : World) (io : LineIo) (hcmd : isCommand (utf8 "/cancel") line) :
    SendsCalled w io line (w.fileCmdCancel io.file line) := by
  unfold fileCmdCancel
  cases harg : commandsParseTidArg (line.drop 7) with
  | none => exact sendsCalled_print _
  | some tid =>
    rcases w.cancelTid_calls io.file tid with ⟨-, hsilent⟩ | ⟨hknown, htried⟩
    · exact Or.inl hsilent
    · exact Or.inr ⟨_, _, .cancel tid hcmd (tidText_of_parse harg) hknown, by simp,
        htried.sends rfl⟩

/-- The words that `isCommand` is asked for. -/
def commandWords : List Bytes :=
  [utf8 "/priv", utf8 "/gcreate", utf8 "/gjoin", utf8 "/gleave", utf8 "/gmsg", utf8 "/sendfile",
    utf8 "/accept", utf8 "/reject", utf8 "/cancel"]

/-- The word of a command is what stands in front of the first blank. -/
theorem takeWhile_isCommand {word : Bytes} (hplain : ∀ b ∈ word, ¬ IsBlank b)
    (h : isCommand word line = true) :
    line.takeWhile (fun b => ¬ decide (IsBlank b)) = word := by
  obtain ⟨hfront, hend⟩ := Bool.and_eq_true_iff.mp h
  obtain ⟨rest, rfl⟩ := List.isPrefixOf_iff_prefix.mp hfront
  rw [List.drop_left] at hend
  rw [List.takeWhile_append_of_pos fun b hb => by simpa using hplain b hb]
  cases rest with
  | nil => simp
  | cons b rest =>
    have hb : IsBlank b := by simpa using hend
    rw [List.takeWhile_cons_of_neg (by simpa using hb), List.append_nil]

/-- A line is at most one of the commands. -/
theorem isCommand_unique {word word' : Bytes} (hmem : word ∈ commandWords)
    (hmem' : word' ∈ commandWords) (h : isCommand word line = true)
    (h' : isCommand word' line = true) : word = word' := by
  have hplain : ∀ word ∈ commandWords, ∀ b ∈ word, ¬ IsBlank b := by decide +kernel
  exact (takeWhile_isCommand (hplain word hmem) h).symm.trans
    (takeWhile_isCommand (hplain word' hmem') h')

/-- What holds of each command holds of the dispatch. -/
theorem handleCommand_cases (w : World) (io : LineIo) (line : Bytes) {P : World × Status → Prop}
    (priv : isCommand (utf8 "/priv") line → P (w.cmdPriv io.sendOk line))
    (users : line = utf8 "/users" →
      P (w.sendBuilt io.sendOk (protocolBuildFrame msgUsers [] 0 protoHeaderSize)))
    (gcreate : isCommand (utf8 "/gcreate") line → P (w.cmdSendSingleName io.sendOk msgGcreate
      (line.drop 8) (utf8 "用法: /gcreate <群名>")))
    (gjoin : isCommand (utf8 "/gjoin") line → P (w.cmdSendSingleName io.sendOk msgGjoin
      (line.drop 6) (utf8 "用法: /gjoin <群名>")))
    (gleave : isCommand (utf8 "/gleave") line → P (w.cmdSendSingleName io.sendOk msgGleave
      (line.drop 7) (utf8 "用法: /gleave <群名>")))
    (gmsg : isCommand (utf8 "/gmsg") line → P (w.cmdGmsg io.sendOk line))
    (sendfile : isCommand (utf8 "/sendfile") line → P (w.fileCmdSendfile io.sendfile line))
    (accept : isCommand (utf8 "/accept") line → P (w.fileCmdAccept io.file line))
    (reject : isCommand (utf8 "/reject") line → P (w.fileCmdReject io.file line))
    (cancel : isCommand (utf8 "/cancel") line → P (w.fileCmdCancel io.file line))
    (unknown : (∀ word ∈ commandWords, ¬ isCommand word line) → ∀ text, P (w.print text, .ok)) :
    P (w.handleCommand io line) := by
  have hite {c : Prop} [Decidable c] {a b : World × Status} (ha : c → P a) (hb : ¬ c → P b) :
      P (if c then a else b) := by
    by_cases h : c
    · rw [if_pos h]
      exact ha h
    · rw [if_neg h]
      exact hb h
  rw [handleCommand]
  refine hite priv fun hpriv => hite users fun _ => hite gcreate fun hgcreate =>
    hite gjoin fun hgjoin => hite gleave fun hgleave => hite gmsg fun hgmsg =>
    hite sendfile fun hsendfile => hite accept fun haccept => hite reject fun hreject =>
    hite cancel fun hcancel => unknown ?_ _
  simp only [commandWords, List.mem_cons, List.not_mem_nil, or_false]
  rintro word (rfl | rfl | rfl | rfl | rfl | rfl | rfl | rfl | rfl) <;> assumption

/-- On a line of one of these commands the dispatch takes its branch. -/
theorem handleCommand_of {word : Bytes} (hmem : word ∈ commandWords)
    (hcmd : isCommand word line = true) {P : World × Status → Prop}
    (priv : word = utf8 "/priv" → P (w.cmdPriv io.sendOk line))
    (gcreate : word = utf8 "/gcreate" → P (w.cmdSendSingleName io.sendOk msgGcreate
      (line.drop 8) (utf8 "用法: /gcreate <群名>")))
    (gjoin : word = utf8 "/gjoin" → P (w.cmdSendSingleName io.sendOk msgGjoin
      (line.drop 6) (utf8 "用法: /gjoin <群名>")))
    (gleave : word = utf8 "/gleave" → P (w.cmdSendSingleName io.sendOk msgGleave
      (line.drop 7) (utf8 "用法: /gleave <群名>")))
    (gmsg : word = utf8 "/gmsg" → P (w.cmdGmsg io.sendOk line))
    (sendfile : word = utf8 "/sendfile" → P (w.fileCmdSendfile io.sendfile line))
    (accept : word = utf8 "/accept" → P (w.fileCmdAccept io.file line))
    (reject : word = utf8 "/reject" → P (w.fileCmdReject io.file line))
    (cancel : word = utf8 "/cancel" → P (w.fileCmdCancel io.file line)) :
    P (w.handleCommand io line) := by
  apply handleCommand_cases
  case priv => exact fun h => priv (isCommand_unique hmem (by decide) hcmd h)
  case users =>
    -- `/users` is none of these words
    rintro rfl
    have hnone : ∀ word ∈ commandWords, isCommand word (utf8 "/users") = false := by decide
    exact absurd hcmd (by rw [hnone word hmem]; decide)
  case gcreate => exact fun h => gcreate (isCommand_unique hmem (by decide) hcmd h)
  case gjoin => exact fun h => gjoin (isCommand_unique hmem (by decide) hcmd h)
  case gleave => exact fun h => gleave (isCommand_unique hmem (by decide) hcmd h)
  case gmsg => exact fun h => gmsg (isCommand_unique hmem (by decide) hcmd h)
  case sendfile => exact fun h => sendfile (isCommand_unique hmem (by decide) hcmd h)
  case accept => exact fun h => accept (isCommand_unique hmem (by decide) hcmd h)
  case reject => exact fun h => reject (isCommand_unique hmem (by decide) hcmd h)
  case cancel => exact fun h => cancel (isCommand_unique hmem (by decide) hcmd h)
  case unknown => exact fun hnone => absurd hcmd (hnone word hmem)

/-- **A command that calls for a frame sends it.** -/
theorem handleCommand_sends (hlen : line.length ≤ 65534) (hslash : line.head? = some 47)
    {type : UInt8} {payload : Bytes} (h : LineFrame w io line type payload) :
    Sends w io type payload (w.handleCommand io line) := by
  cases h with
  | chat hne hbare => exact absurd hslash hbare
  | priv target msg hcmd hargs hfits =>
    apply handleCommand_of (by decide) hcmd
    case priv => exact fun _ => cmdPriv_sends hlen hargs hfits
    all_goals exact fun h => absurd h (by decide)
  | gmsg group msg hcmd hargs hfits =>
    apply handleCommand_of (by decide) hcmd
    case gmsg => exact fun _ => cmdGmsg_sends hlen hargs hfits
    all_goals exact fun h => absurd h (by decide)
  | users hcmd =>
    subst hcmd
    rw [handleCommand, if_neg (by decide), if_pos rfl]
    exact sends_sendBuilt w io rfl rfl
  | gcreate name hcmd harg hfits =>
    apply handleCommand_of (by decide) hcmd
    case gcreate => exact fun _ => cmdSendSingleName_sends harg hfits rfl
    all_goals exact fun h => absurd h (by decide)
  | gjoin name hcmd harg hfits =>
    apply handleCommand_of (by decide) hcmd
    case gjoin => exact fun _ => cmdSendSingleName_sends harg hfits rfl
    all_goals exact fun h => absurd h (by decide)
  | gleave name hcmd harg hfits =>
    apply handleCommand_of (by decide) hcmd
    case gleave => exact fun _ => cmdSendSingleName_sends harg hfits rfl
    all_goals exact fun h => absurd h (by decide)
  | init target filename hcmd hargs htarget hfilename hidle hfile hsize =>
    apply handleCommand_of (by decide) hcmd
    case sendfile =>
      exact fun _ => sendfile_sends ⟨hargs.parseSendfile_eq htarget hfilename, hidle, hfile, hsize⟩
    all_goals exact fun h => absurd h (by decide)
  | accept tid i hcmd harg hawaits hown =>
    apply handleCommand_of (by decide) hcmd
    case accept =>
      intro _
      rw [fileCmdAccept, harg.parse_eq]
      rcases w.acceptTid_calls io.file tid with ⟨hnot, -⟩ | ⟨-, -, -, haccepted⟩
      · exact absurd hawaits (hnot i)
      · exact (haccepted hown).sends rfl
    all_goals exact fun h => absurd h (by decide)
  | autoReject tid i hcmd harg hawaits hown =>
    apply handleCommand_of (by decide) hcmd
    case accept =>
      intro _
      rw [fileCmdAccept, harg.parse_eq]
      rcases w.acceptTid_calls io.file tid with ⟨hnot, -⟩ | ⟨-, -, hrefused, -⟩
      · exact absurd hawaits (hnot i)
      · exact (hrefused hown).sends rfl
    all_goals exact fun h => absurd h (by decide)
  | reject tid i hcmd harg hfind hidle =>
    apply handleCommand_of (by decide) hcmd
    case reject =>
      intro _
      rw [fileCmdReject, harg.parse_eq]
      rcases w.rejectTid_calls io.file tid with ⟨hnot, -⟩ | ⟨-, -, -, htried⟩
      · exact absurd hidle (hnot i hfind)
      · exact htried.sends rfl
    all_goals exact fun h => absurd h (by decide)
  | cancel tid hcmd harg hknown =>
    apply handleCommand_of (by decide) hcmd
    case cancel =>
      intro _
      rw [fileCmdCancel, harg.parse_eq]
      rcases w.cancelTid_calls io.file tid with ⟨hnot, -⟩ | ⟨-, htried⟩
      · exact absurd hknown hnot
      · exact htried.sends rfl
    all_goals exact fun h => absurd h (by decide)

theorem handleCommand_called (w : World) (io : LineIo) (hlen : line.length ≤ 65534) :
    SendsCalled w io line (w.handleCommand io line) := by
  apply handleCommand_cases
  case priv => exact cmdPriv_called hlen
  case users =>
    intro husers
    exact Or.inr ⟨_, _, .users husers, by simp, sends_sendBuilt w io rfl rfl⟩
  case gcreate =>
    exact fun hcmd => cmdSendSingleName_called (fun name => .gcreate name hcmd) rfl
  case gjoin => exact fun hcmd => cmdSendSingleName_called (fun name => .gjoin name hcmd) rfl
  case gleave => exact fun hcmd => cmdSendSingleName_called (fun name => .gleave name hcmd) rfl
  case gmsg => exact cmdGmsg_called hlen
  case sendfile => exact sendfile_called w io
  case accept => exact accept_called w io
  case reject => exact reject_called w io
  case cancel => exact cancel_called w io
  case unknown => exact fun _ => sendsCalled_print

theorem framesTried_uiPrintHelp (w : World) : w.uiPrintHelp.framesTried = w.framesTried := by
  have hprint : ∀ (l : List Bytes) (v : World),
      (l.foldl print v).framesTried = v.framesTried := by
    intro l
    induction l with
    | nil => intro v; rfl
    | cons text l ih =>
      intro v
      rw [List.foldl_cons, ih, framesTried_print]
  exact hprint helpLines w

end World

/-- The frame of a line that starts with a slash is no chat. -/
theorem LineFrame.ne_chat {w : World} {io : LineIo} {line : Bytes} {type : UInt8}
    {payload : Bytes} (h : LineFrame w io line type payload) (hslash : line.head? = some 47) :
    type ≠ msgChat := by
  cases h with
  | chat hne hbare => exact absurd hslash hbare
  | _ => decide

theorem protocolParse_frameBytes (type : UInt8) {payload : Bytes} (h : payload.length < 2 ^ 16) :
    protocolParse (frameBytes type payload) =
      .item (frameBytes type payload).length (type, payload) := by
  have hparse := protocolParse_encode ⟨type, payload, h⟩ []
  rw [List.append_nil] at hparse
  have hlen : (frameBytes type payload).length = 5 + payload.length :=
    Frame.length_encode ⟨type, payload, h⟩
  rw [hlen]
  exact hparse

/-- Bare text is sent as it is. -/
theorem handleLine_bare (w : World) (io : LineIo) (login : World × Status) {line : Bytes}
    (hlen : line.length ≤ 65534) (hne : line ≠ []) (hbare : line.head? ≠ some 47) :
    (w.commandsHandleLine io line login).world.framesTried =
        w.framesTried ++ [(frameBytes msgChat (line ++ [0]), io.sendOk)] ∧
      ((w.commandsHandleLine io line login).status = .lost → io.sendOk = false) := by
  have hcap : (5 + (line.length + 1) : Nat) ≤ (protoHeaderSize + maxMessageLen + 1 : Int) := by
    simp only [protoHeaderSize, maxMessageLen]
    omega
  have hbuilt := World.protocolBuildText1_eq msgChat (show line.length + 1 < 2 ^ 16 by omega) hcap
  obtain ⟨b, rest, rfl⟩ := List.exists_cons_of_ne_nil hne
  have hb : b ≠ 47 := by simpa using hbare
  rw [World.commandsHandleLine, if_neg hb, hbuilt]
  cases io.sendOk with
  | false => exact ⟨by simp [World.sendBuilt, World.connSendAll, Effect.triedFrame], by simp⟩
  | true => exact ⟨by simp [World.sendBuilt, World.connSendAll, Effect.triedFrame],
      by simp [World.sendBuilt, World.connSendAll]⟩

theorem handleLine_called (w : World) (io : LineIo) (login : World × Status) {line : Bytes}
    (hlen : line.length ≤ 65534) (hlogin : line ≠ utf8 "/login") :
    SendsCalled w io line ((w.commandsHandleLine io line login).world,
      (w.commandsHandleLine io line login).status) := by
  cases line with
  | nil => exact Or.inl ⟨rfl, rfl⟩
  | cons b rest =>
    by_cases hb : b = 47
    · rw [World.commandsHandleLine, if_pos hb, if_neg hlogin]
      split_ifs
      · exact Or.inl ⟨rfl, rfl⟩
      · exact Or.inl ⟨w.framesTried_uiPrintHelp, rfl⟩
      · exact w.handleCommand_called io hlen
    · have hbare : (b :: rest).head? ≠ some 47 := by simpa using hb
      obtain ⟨hframes, hlost⟩ := handleLine_bare w io login hlen (by simp) hbare
      refine Or.inr ⟨_, _, .chat (by simp) hbare, ?_, hframes, hlost⟩
      rw [List.length_append, List.length_singleton]
      omega

/-- A line that calls for a frame is bare text, or one of the commands. -/
theorem LineFrame.bare_or_command {w : World} {io : LineIo} {line : Bytes} {type : UInt8}
    {payload : Bytes} (h : LineFrame w io line type payload) :
    (line ≠ [] ∧ line.head? ≠ some 47 ∧ type = msgChat ∧ payload = line ++ [0]) ∨
      line = utf8 "/users" ∨ ∃ word ∈ World.commandWords, isCommand word line = true := by
  cases h with
  | chat hne hbare => exact Or.inl ⟨hne, hbare, rfl, rfl⟩
  | users hcmd => exact Or.inr (Or.inl hcmd)
  | priv target msg hcmd hargs hfits => exact Or.inr (Or.inr ⟨_, by decide, hcmd⟩)
  | gmsg group msg hcmd hargs hfits => exact Or.inr (Or.inr ⟨_, by decide, hcmd⟩)
  | gcreate name hcmd harg hfits => exact Or.inr (Or.inr ⟨_, by decide, hcmd⟩)
  | gjoin name hcmd harg hfits => exact Or.inr (Or.inr ⟨_, by decide, hcmd⟩)
  | gleave name hcmd harg hfits => exact Or.inr (Or.inr ⟨_, by decide, hcmd⟩)
  | init target filename hcmd => exact Or.inr (Or.inr ⟨_, by decide, hcmd⟩)
  | accept tid i hcmd harg hawaits hown => exact Or.inr (Or.inr ⟨_, by decide, hcmd⟩)
  | autoReject tid i hcmd harg hawaits hown => exact Or.inr (Or.inr ⟨_, by decide, hcmd⟩)
  | reject tid i hcmd harg hfind hidle => exact Or.inr (Or.inr ⟨_, by decide, hcmd⟩)
  | cancel tid hcmd harg hknown => exact Or.inr (Or.inr ⟨_, by decide, hcmd⟩)

/-- A command starts with a slash, and is none of the words that are compared before it. -/
theorem command_slash {line : Bytes}
    (h : line = utf8 "/users" ∨ ∃ word ∈ World.commandWords, isCommand word line = true) :
    line.head? = some 47 ∧ line ∉ [utf8 "/quit", utf8 "/help", utf8 "/login"] := by
  rcases h with rfl | ⟨word, hmem, hcmd⟩
  · decide
  · have hwords : ∀ word ∈ World.commandWords, word.head? = some 47 ∧
        ∀ line ∈ [utf8 "/quit", utf8 "/help", utf8 "/login"], ¬ isCommand word line = true := by
      decide
    obtain ⟨hhead, hother⟩ := hwords word hmem
    refine ⟨?_, fun hline => hother line hline hcmd⟩
    obtain ⟨rest, rfl⟩ := List.isPrefixOf_iff_prefix.mp (Bool.and_eq_true_iff.mp hcmd).1
    rw [List.head?_append, hhead]
    rfl

/-- **A line that calls for a frame sends it.** -/
theorem handleLine_sends (w : World) (io : LineIo) (login : World × Status) {line : Bytes}
    (hlen : line.length ≤ 65534) {type : UInt8} {payload : Bytes}
    (h : LineFrame w io line type payload) :
    Sends w io type payload ((w.commandsHandleLine io line login).world,
      (w.commandsHandleLine io line login).status) := by
  rcases h.bare_or_command with ⟨hne, hbare, rfl, rfl⟩ | hcommand
  · exact handleLine_bare w io login hlen hne hbare
  · obtain ⟨hslash, hother⟩ := command_slash hcommand
    have hsends := World.handleCommand_sends hlen hslash h
    simp only [List.mem_cons, List.not_mem_nil, or_false, not_or] at hother
    obtain ⟨hquit, hhelp, hlogin⟩ := hother
    obtain ⟨b, rest, rfl⟩ : ∃ b rest, line = b :: rest := by
      cases line with
      | nil => exact absurd hslash (by simp)
      | cons b rest => exact ⟨b, rest, rfl⟩
    have hb : b = 47 := by simpa using hslash
    rw [World.commandsHandleLine, if_pos hb, if_neg hquit, if_neg hhelp, if_neg hlogin]
    exact hsends

/-- **Input lines.** A line other than `/login` makes the client send nothing and report no
    failure, or send exactly one frame, which the parser consumes whole and gives back with the
    type and the arguments the line calls for; a failure is reported only when that frame did not
    go out.  Every line that calls for a frame sends it: bare text always, as chat, and a line with
    a slash when it is a command whose arguments fit and that finds what it is about.  A line with
    a slash is never sent as chat. -/
theorem handleLine_wellFormed (w : World) (io : LineIo) (login : World × Status) {line : Bytes}
    (hlen : line.length ≤ 65534) (hlogin : line ≠ utf8 "/login") :
    (((w.commandsHandleLine io line login).world.framesTried = w.framesTried ∧
        (w.commandsHandleLine io line login).status = .ok) ∨
      ∃ type payload, LineFrame w io line type payload ∧
        (w.commandsHandleLine io line login).world.framesTried =
          w.framesTried ++ [(frameBytes type payload, io.answers type)] ∧
        ((w.commandsHandleLine io line login).status = .lost → io.answers type = false) ∧
        protocolParse (frameBytes type payload) =
          .item (frameBytes type payload).length (type, payload) ∧
        (line.head? = some 47 → type ≠ msgChat)) ∧
    (line ≠ [] → line.head? ≠ some 47 →
      (w.commandsHandleLine io line login).world.framesTried =
        w.framesTried ++ [(frameBytes msgChat (line ++ [0]), io.sendOk)]) ∧
    ∀ type payload, LineFrame w io line type payload →
      (w.commandsHandleLine io line login).world.framesTried =
        w.framesTried ++ [(frameBytes type payload, io.answers type)] := by
  refine ⟨(handleLine_called w io login hlen hlogin).imp_right ?_,
    fun hne hbare => (handleLine_bare w io login hlen hne hbare).1,
    fun type payload h => (handleLine_sends w io login hlen h).1⟩
  rintro ⟨type, payload, hframe, hfits, hframes, hlost⟩
  exact ⟨type, payload, hframe, hframes, hlost, protocolParse_frameBytes type hfits,
    hframe.ne_chat⟩

/-- A chat line of the largest length, and a private message, with the connection up. -/
theorem handleLine_wellFormed_longest :
    ((World.init fun _ => none).commandsHandleLine
        ⟨true, ⟨true, true, 1, true, true, by decide⟩, Io.ok⟩ (List.replicate 65534 65)
        (World.init (fun _ => none), .ok)).world.framesTried =
      [(frameBytes msgChat (List.replicate 65534 65 ++ [0]), true)] ∧
    ((World.init fun _ => none).commandsHandleLine
        ⟨true, ⟨true, true, 1, true, true, by decide⟩, Io.ok⟩ (utf8 "/priv bob hi")
        (World.init (fun _ => none), .ok)).world.framesTried =
      [(frameBytes msgPriv (utf8 "bob" ++ [0] ++ utf8 "hi" ++ [0]), true)] := by
  have hne : List.replicate 65534 (65 : UInt8) ≠ [] := by
    rw [Ne, List.replicate_eq_nil_iff]
    decide
  have hhead : (List.replicate 65534 (65 : UInt8)).head? ≠ some 47 := by
    rw [List.head?_replicate]
    decide
  constructor
  · refine (handleLine_wellFormed _ _ _ ?_ ?_).2.1 hne hhead
    · rw [List.length_replicate]
    · intro h
      have hslash := congrArg List.head? h
      rw [List.head?_replicate] at hslash
      exact absurd hslash (by decide)
  · have hargs : NameText ((utf8 "/priv bob hi").drop 5) (utf8 "bob") (utf8 "hi") :=
      ⟨⟨[32], [32], by decide +kernel, by decide +kernel, by decide +kernel, by decide +kernel⟩,
        by decide +kernel, ⟨104, [105], by decide +kernel, by decide +kernel⟩⟩
    exact (handleLine_wellFormed _ _ _ (by decide +kernel) (by decide +kernel)).2.2 _ _
      (.priv _ _ (by decide +kernel) hargs (by decide +kernel))

end TCPClient
