import TCPClient.Views
import TCPClient.Pacing
import TCPClient.InputLines
import TCPClient.Builders
import TCPClient.FolderSpec

namespace TCPClient

open Octets Memory Reader

/-!
# The client as a whole

A session over raw standard input: the client reads its names and lines itself, `poll` and the
outside decide the rest.

* `Action` — what the client can do to its world: a call of the file module, a line shown, a frame
  of a line sent.  `does_console` says that every session is a sequence of such actions.
* `console_refines` — the file module cannot tell the client from a plain sequence of its own
  calls: the tasks, the files and the operations on files are those of a `fileRun`.
-/

/-! ### Actions -/

/-- Every answer of the outside to the call meets a condition. -/
def FileEvent.AllIo (Q : Io → Prop) : FileEvent → Prop
  | .accept _ io | .reject _ io | .cancel _ io | .announcement _ io | .frame _ _ io
  | .error _ io => Q io
  | .reset io => ∀ i, Q (io i)
  | _ => True

/-- Where every removal works, those of a call do. -/
theorem removesWork_of_allIo {e : FileEvent} (h : e.AllIo fun io => io.removeOk = true) :
    e.RemovesWork := by
  cases e <;> exact h

/-- What the client does to its world. -/
inductive Action where
  | file (e : FileEvent)
  | print (text : Bytes)
  | incoming (text : Bytes)
  | send (frame : Frame) (ok : Bool)

/-- The outside answers as the condition says, and only the frames of lines and logins are sent
    past the file module. -/
def Action.Allowed (Q : Io → Prop) : Action → Prop
  | .file e => e.AllIo Q
  | .send frame _ => frame.type ∈ World.lineTypes
  | _ => True

namespace World

def act (w : World) : Action → World
  | .file e => fileStep w e
  | .print text => w.print text
  | .incoming text => w.displayIncoming text
  | .send frame ok => w.emit (.send frame.encode ok)

def acts (w : World) (actions : List Action) : World := actions.foldl act w

/-- The client comes from `w` to `w'` by allowed actions. -/
def Does (Q : Io → Prop) (w w' : World) : Prop :=
  ∃ actions, (∀ a ∈ actions, Action.Allowed Q a) ∧ w' = w.acts actions

variable {Q : Io → Prop} {w w' w'' : World}

theorem Does.refl (Q : Io → Prop) (w : World) : Does Q w w := ⟨[], by simp, rfl⟩

theorem Does.trans (h : Does Q w w') (h' : Does Q w' w'') : Does Q w w'' := by
  obtain ⟨actions, hallowed, rfl⟩ := h
  obtain ⟨actions', hallowed', rfl⟩ := h'
  refine ⟨actions ++ actions', fun a ha => ?_, List.foldl_append.symm⟩
  exact (List.mem_append.mp ha).elim (hallowed a) (hallowed' a)

theorem Does.one {a : Action} (h : a.Allowed Q) : Does Q w (w.act a) :=
  ⟨[a], fun _ hb => List.mem_singleton.mp hb ▸ h, rfl⟩

theorem Does.file (e : FileEvent) (h : e.AllIo Q) : Does Q w (fileStep w e) :=
  .one (a := .file e) h

theorem Does.print (text : Bytes) : Does Q w (w.print text) := .one (a := .print text) trivial

theorem Does.incoming (text : Bytes) : Does Q w (w.displayIncoming text) :=
  .one (a := .incoming text) trivial

/-- **Invariant rule** for actions. -/
theorem Does.invariant {P : World → Prop} (h : Does Q w w')
    (hact : ∀ w a, Action.Allowed Q a → P w → P (w.act a)) (hw : P w) : P w' := by
  obtain ⟨actions, hallowed, rfl⟩ := h
  induction actions generalizing w with
  | nil => exact hw
  | cons a actions ih =>
    exact ih (hact w a (hallowed a (by simp)) hw) fun b hb => hallowed b (List.mem_cons_of_mem a hb)

/-! ### Frames -/

/-- `memchr` looks at the bytes it is given. -/
theorem local_memchr (off n : Nat) : Local fun p => memchr p off n := by
  induction n generalizing off with
  | zero => exact .const _
  | succ n ih =>
    simp only [memchr]
    exact .bind (local_read off 1) fun b => .ite (.const _) ((ih (off + 1)).map _)

/-- So does the parser of INIT. -/
theorem local_fileParseInitPayload (plen senderSz filenameSz : Nat) :
    Local fun p => fileParseInitPayload p plen senderSz filenameSz := by
  have htake (l1 s2 l2 s3 l3 : Nat) :
      Local fun p => takeInitFields p senderSz filenameSz l1 s2 l2 s3 l3 := by
    refine .ite (.const _) (.ite (.const _) (.ite (.const _) (.bind (local_read _ _) ?_)))
    intro digits
    cases utilsParseU64Range digits with
    | none => exact .const _
    | some size =>
      exact .bind (local_read _ _) fun sender => .bind (local_read _ _) fun filename => .const _
  refine .bind (local_memchr 0 plen) fun l1 => ?_
  cases l1 with
  | none => exact .const _
  | some l1 =>
    refine .ite (.const _) (.bind (local_memchr _ _) fun l2 => ?_)
    cases l2 with
    | none => exact .const _
    | some l2 =>
      refine .ite (.const _) (.bind (local_memchr _ _) fun l3 => ?_)
      cases l3 with
      | none => exact .const _
      | some l3 => exact htake _ _ _ _ _

/-- Whatever the pointer, the fields that are read can be sent. -/
theorem wf_of_fileParseInitPayload {p : Ptr} {plen : Nat} {f : InitFields}
    (h : fileParseInitPayload p plen maxUsernameLen maxFilenameLen = some (some f)) : f.Wf := by
  obtain ⟨n, rfl⟩ : ∃ n, plen = n + 1 := by
    cases plen with
    | zero => exact absurd (Option.some.inj h) (by simp)
    | succ n => exact ⟨n, rfl⟩
  cases p with
  | none => exact absurd h (by simp [fileParseInitPayload, memchr, Memory.read])
  | some m =>
    -- the memory with zeros behind it holds a payload of the length that is asked for
    obtain ⟨pl, rest, hm, hlen⟩ : ∃ pl rest, m ++ List.replicate (n + 1) 0 = pl ++ rest ∧
        pl.length = n + 1 := by
      refine ⟨_, _, (List.take_append_drop (n + 1) _).symm, ?_⟩
      rw [List.length_take, List.length_append, List.length_replicate]
      omega
    have hlong := local_fileParseInitPayload _ _ _ m (List.replicate (n + 1) 0) _ h
    rw [hm, ← span_of_ne_nil (List.ne_nil_of_length_pos (by omega)), ← hlen] at hlong
    exact (fileParseInitPayload_span_eq_some.mp hlong).1

/-- A frame is one call of `file.c`. -/
theorem does_fileHandleFrame {io : Io} (hio : Q io) {type : UInt8} {payload : Ptr} {plen : Nat}
    (h : w.fileHandleFrame io type payload plen = some w') : Does Q w w' := by
  unfold fileHandleFrame at h
  split_ifs at h
  · obtain ⟨bytes, hread, rfl⟩ := Option.map_eq_some_iff.mp h
    rw [← fileFrame_control w io type (length_read hread)]
    exact .file (.frame type bytes io) hio
  · obtain ⟨fields, hparse, rfl⟩ := Option.map_eq_some_iff.mp h
    cases fields with
    | none => exact .refl Q w
    | some f =>
      -- the payload that these fields are sent in does the same
      have hfields := initFields_payload (wf_of_fileParseInitPayload hparse)
      have hlong := six_le_of_initFields hfields
      have hframe := fileFrame_init w io (show f.payload.length ≠ 4 by omega)
      rw [hfields] at hframe
      show Does Q w (w.recvFillInit f)
      rw [show w.recvFillInit f = fileStep w (.frame msgFileInit f.payload io) from hframe.symm]
      exact .file _ hio
  · unfold recvHandleChunk at h
    split_ifs at h
    · exact Option.some.inj h ▸ .refl Q w
    · obtain ⟨tid, htid, h⟩ := Option.bind_eq_some_iff.mp h
      obtain ⟨offset, hoffset, h⟩ := Option.bind_eq_some_iff.mp h
      obtain ⟨data, -, rfl⟩ := Option.map_eq_some_iff.mp h
      have h4 := length_read htid
      have h8 := length_read hoffset
      have h12 : 12 ≤ (tid ++ (offset ++ data)).length := by
        rw [List.length_append, List.length_append]
        omega
      have hframe := fileFrame_chunk w io h12
      have hdata : (tid ++ (offset ++ data)).drop 12 = data := by
        rw [← List.append_assoc]
        exact List.drop_left' (by rw [List.length_append, h4, h8])
      have htid : utilsReadU32Be (tid ++ (offset ++ data)) = utilsReadU32Be tid := by
        rw [utilsReadU32Be, utilsReadU32Be, List.take_left' h4, List.take_of_length_le h4.le]
      have hoffset : utilsReadU64Be (offset ++ data) = utilsReadU64Be offset := by
        rw [utilsReadU64Be, utilsReadU64Be, List.take_left' h8, List.take_of_length_le h8.le]
      rw [List.drop_left' h4, hdata, htid, hoffset] at hframe
      rw [← hframe]
      exact .file (.frame msgFileChunk _ io) hio
  · exact Option.some.inj h ▸ .refl Q w

/-- **Frames.** -/
theorem does_appHandleFrame {io : Io} (hio : Q io) {type : UInt8} {payload : Ptr} {plen : Nat}
    (h : w.appHandleFrame io type payload plen = some w') : Does Q w w' := by
  unfold appHandleFrame at h
  split_ifs at h
  · -- a server message is displayed, and may be an announcement
    obtain ⟨text, -, rfl⟩ := Option.map_eq_some_iff.mp h
    exact (Does.incoming text).trans (.file (.announcement text io) hio)
  · obtain ⟨text, -, rfl⟩ := Option.map_eq_some_iff.mp h
    exact .incoming text
  · obtain ⟨code, -, h⟩ := Option.bind_eq_some_iff.mp h
    obtain ⟨message, -, rfl⟩ := Option.map_eq_some_iff.mp h
    exact (Does.incoming _).trans (.file (.error _ io) hio)
  · exact Option.some.inj h ▸ .refl Q w
  · obtain ⟨head, -, h⟩ := Option.bind_eq_some_iff.mp h
    obtain ⟨users, -, rfl⟩ := Option.map_eq_some_iff.mp h
    exact .incoming _
  · exact does_fileHandleFrame hio h
  · exact Option.some.inj h ▸ .print _

/-- A frame of the login is shown or printed. -/
theorem does_loginHandleFrame {type : UInt8} {payload : Ptr} {outcome : LoginOutcome}
    (h : w.loginHandleFrame type payload = some (w', outcome)) : Does Q w w' := by
  unfold loginHandleFrame at h
  split_ifs at h
  · obtain ⟨text, -, hout⟩ := Option.map_eq_some_iff.mp h
    obtain rfl : _ = w' := congrArg Prod.fst hout
    exact .incoming text
  · obtain ⟨code, -, h⟩ := Option.bind_eq_some_iff.mp h
    obtain ⟨message, -, hout⟩ := Option.map_eq_some_iff.mp h
    obtain rfl : _ = w' := congrArg Prod.fst hout
    exact .incoming _
  · obtain rfl : w = w' := congrArg Prod.fst (Option.some.inj h)
    exact .refl Q w

end World

/-! ### What is read -/

/-- A text that was taken fits the buffer with its newline. -/
theorem readLine_length {size : Nat} (hsize : 2 ≤ size) {s s' : Stdin} {text : Bytes}
    (h : (readLine size).run s = (.text text, s')) : text.length < size - 1 := by
  have hround := (readLine_run hsize s).1
  rw [h] at hround
  have hlen := length_le_of_roundOf hround.symm
  omega

/-- A line that `prompt_line` takes fits the buffer, newline included. -/
theorem promptLoop_length {size : Nat} (hsize : 2 ≤ size) {n : Nat} {s s' : Stdin} {text : Bytes}
    (h : (promptLoop size n).run s = (some text, s')) : text.length < size - 1 := by
  induction n generalizing s with
  | zero => exact absurd (congrArg Prod.fst h) (by simp [promptLoop])
  | succ n ih =>
    rw [promptLoop_succ, StateT.run_bind] at h
    cases hline : (readLine size).run s with
    | mk line s₁ =>
      rw [hline] at h
      cases line with
      | eof => exact absurd (show none = some text from congrArg Prod.fst h) (by simp)
      | discarded => exact ih h
      | text line =>
        obtain rfl : line = text := Option.some.inj (congrArg Prod.fst h)
        exact readLine_length hsize hline

/-- The names fit the buffers of `commands_login`. -/
def NamesFit (names : Bytes × Bytes) : Prop :=
  names.1.length < maxUsernameLen - 1 ∧ names.2.length < maxPasswordLen - 1

/-- So the names fit their frame. -/
theorem namesLoop_fit {n : Nat} {s s' : Stdin} {names : Bytes × Bytes}
    (h : (namesLoop n).run s = (some names, s')) : NamesFit names := by
  induction n generalizing s with
  | zero => exact absurd (congrArg Prod.fst h) (by simp [namesLoop])
  | succ n ih =>
    rw [namesLoop, StateT.run_bind] at h
    cases huser : (promptLine maxUsernameLen).run s with
    | mk user s₁ =>
      rw [huser] at h
      cases user with
      | none => exact absurd (show none = some names from congrArg Prod.fst h) (by simp)
      | some user =>
        change ((promptLine maxPasswordLen >>= _).run s₁) = _ at h
        rw [StateT.run_bind] at h
        cases hpass : (promptLine maxPasswordLen).run s₁ with
        | mk pass s₂ =>
          rw [hpass] at h
          cases pass with
          | none => exact absurd (show none = some names from congrArg Prod.fst h) (by simp)
          | some pass =>
            replace h : (if user = [] ∨ pass = [] then namesLoop n
              else pure (some (user, pass)) : StateM Stdin (Option (Bytes × Bytes))).run s₂ =
                (some names, s') := h
            by_cases hempty : user = [] ∨ pass = []
            · rw [if_pos hempty] at h
              exact ih h
            · rw [if_neg hempty] at h
              obtain rfl := Option.some.inj (congrArg Prod.fst h)
              exact ⟨promptLoop_length (by decide) huser, promptLoop_length (by decide) hpass⟩

/-- What can stand behind a reading of standard input: a line and names that fit. -/
def Input.Fits : Input → Prop
  | .line text => text.length < appInputMax - 1
  | .login (some names) => NamesFit names
  | _ => True

/-- **Whatever is on standard input**, what is read fits its buffers. -/
theorem Reading.fits (reading : Reading) (s : Stdin) : (reading.read.run s).1.Fits := by
  have hnames (s : Stdin) : (Input.login (readNames.run s).1).Fits := by
    cases hread : readNames.run s with
    | mk names s' =>
      cases names with
      | none => trivial
      | some names => exact namesLoop_fit hread
  cases reading with
  | names => exact hnames s
  | input =>
    show (readInput.run s).1.Fits
    rw [readInput_eq, StateT.run_bind]
    cases hline : (readLine appInputMax).run s with
    | mk line s' =>
      cases line with
      | eof => trivial
      | discarded => trivial
      | text line =>
        show ((if line = utf8 "/login" then do return .login (← readNames)
          else pure (.line line) : StateM Stdin Input).run s').1.Fits
        split_ifs
        · exact hnames s'
        · exact readLine_length (by decide) hline

/-! ### Lines -/

/-- A frame that a line or a login is sent in. -/
def IsLineFrame (bytes : Bytes) : Prop :=
  ∃ frame : Frame, frame.type ∈ World.lineTypes ∧ bytes = frame.encode

/-- What a builder makes of a payload that fits the header field is a frame. -/
theorem isLineFrame_of_fits {c : BuildCall} {payload : Bytes}
    (hmeant : c.intended = some payload) (hfits : payload.length < 2 ^ 16)
    (htype : c.msgType ∈ World.lineTypes) (outCap : Int) :
    ∀ bytes ∈ c.run outCap, IsLineFrame bytes := by
  intro bytes hbytes
  rcases BuildCall.agrees_of_fits hmeant hfits outCap with
    hnone | ⟨out, payload, hout, -, -, hparse, -⟩
  · exact absurd (hnone.symm.trans hbytes) (by simp)
  · obtain rfl : out = bytes := Option.some.inj (hout.symm.trans hbytes)
    have hitem := hparse []
    rw [List.append_nil] at hitem
    obtain ⟨f, hftype, hpayload, hlen, hprefix⟩ := (protocolParse_eq_item _ _ _ _).mp hitem
    refine ⟨f, hftype ▸ htype, (List.IsPrefix.eq_of_length hprefix ?_).symm⟩
    rw [Frame.length_encode, hlen, hpayload]

namespace World

variable {Q : Io → Prop} {w : World}

/-- A frame that was built is sent. -/
theorem does_sendBuilt (sendOk : Bool) {built : Option Bytes}
    (h : ∀ bytes ∈ built, IsLineFrame bytes) : Does Q w (w.sendBuilt sendOk built).1 := by
  cases built with
  | none => exact .refl Q w
  | some bytes =>
    obtain ⟨frame, htype, rfl⟩ := h bytes rfl
    have hsent : (w.sendBuilt sendOk (some frame.encode)).1 = w.act (.send frame sendOk) := by
      cases sendOk <;> rfl
    rw [hsent]
    exact .one htype

/-- The group commands send or complain. -/
theorem does_cmdSendSingleName (sendOk : Bool) {type : UInt8} (htype : type ∈ lineTypes)
    (arg usage : Bytes) : Does Q w (w.cmdSendSingleName sendOk type arg usage).1 := by
  unfold cmdSendSingleName
  dsimp only
  split_ifs with hnil hlong
  · exact .print _
  · exact .print _
  · refine does_sendBuilt sendOk
      (isLineFrame_of_fits (c := .text1 type (skipBlanks arg)) rfl ?_ htype _)
    simp only [maxGroupNameLen] at hlong
    rw [List.length_append, List.length_singleton]
    omega

/-- The login sends AUTH. -/
theorem does_commandsLogin (sendOk : Bool) {names : Bytes × Bytes} (hfit : NamesFit names) :
    Does Q w (w.commandsLogin sendOk (some names)).1 := by
  obtain ⟨user, pass⟩ := names
  refine does_sendBuilt sendOk
    (isLineFrame_of_fits (c := .text2 msgAuth user pass) rfl ?_
      (show msgAuth ∈ lineTypes by decide) _)
  obtain ⟨huser, hpass⟩ := hfit
  simp only [maxUsernameLen, maxPasswordLen] at huser hpass
  simp only [List.length_append, List.length_singleton]
  omega

/-- A name and a text of one line fit a frame. -/
theorem does_sendNameText (sendOk : Bool) {type : UInt8} (htype : type ∈ lineTypes)
    {line name text : Bytes} (hline : line.length < appInputMax - 1)
    (hargs : NameText (line.drop 5) name text) (outCap : Int) :
    Does Q w (w.sendBuilt sendOk (protocolBuildText2 type name text outCap)).1 := by
  refine does_sendBuilt sendOk (isLineFrame_of_fits (c := .text2 type name text) rfl ?_ htype _)
  have hlen := hargs.length_lt
  simp only [appInputMax, maxMessageLen] at hline
  rw [List.length_drop] at hlen
  simp only [List.length_append, List.length_singleton]
  omega

/-- A line is a command or chat. -/
theorem does_handleCommand {io : LineIo} (hio : Q io.file) {line : Bytes}
    (hline : line.length < appInputMax - 1) : Does Q w (w.handleCommand io line).1 := by
  apply w.handleCommand_cases io line (P := fun res => Does Q w res.1)
  case priv =>
    intro _
    rw [cmdPriv]
    cases hparse : commandsParsePriv line maxUsernameLen with
    | none => exact .print _
    | some args => exact does_sendNameText _ (by decide) hline (nameText_of_parse hparse) _
  case gmsg =>
    intro _
    rw [cmdGmsg]
    cases hparse : commandsParseGmsg line maxGroupNameLen with
    | none => exact .print _
    | some args => exact does_sendNameText _ (by decide) hline (nameText_of_parse hparse) _
  case users =>
    intro _
    exact does_sendBuilt _ (isLineFrame_of_fits (c := .frame msgUsers [] (by decide)) rfl
      (by decide) (by decide) _)
  case gcreate => exact fun _ => does_cmdSendSingleName _ (by decide) _ _
  case gjoin => exact fun _ => does_cmdSendSingleName _ (by decide) _ _
  case gleave => exact fun _ => does_cmdSendSingleName _ (by decide) _ _
  case sendfile => exact fun _ => .file (.sendfile line io.sendfile) trivial
  case accept => exact fun _ => .file (.accept line io.file) hio
  case reject => exact fun _ => .file (.reject line io.file) hio
  case cancel => exact fun _ => .file (.cancel line io.file) hio
  case unknown => exact fun _ text => .print text

/-- **Lines.** -/
theorem does_commandsHandleLine {io : LineIo} (hio : Q io.file) {line : Bytes}
    (hline : line.length < appInputMax - 1) :
    Does Q w (w.commandsHandleLine io line (w, .ok)).world := by
  cases line with
  | nil => exact .refl Q w
  | cons b rest =>
    rw [commandsHandleLine]
    split_ifs
    · exact .refl Q w
    · -- the lines of the help text
      have hprint (lines : List Bytes) (v : World) : Does Q v (lines.foldl World.print v) := by
        induction lines generalizing v with
        | nil => exact .refl Q v
        | cons text lines ih => exact (Does.print text).trans (ih (v.print text))
      exact hprint helpLines w
    · exact .refl Q w
    · exact does_handleCommand hio hline
    · refine does_sendBuilt _ (isLineFrame_of_fits (c := .text1 msgChat (b :: rest)) rfl ?_
        (show msgChat ∈ lineTypes by decide) _)
      simp only [appInputMax, maxMessageLen] at hline
      rw [List.length_append, List.length_singleton]
      omega

end World

/-! ### The console -/

/-- What one `poll` of the client leads to; what is on standard input the client reads itself. -/
inductive ConsolePoll where
  | interrupted
  | failed
  | timeout (io : TickIo)
  | ready (socket : Option (Bool × RecvResult)) (stdin : Option LineIo)

/-- What happens to the client next: it asks for names in `login_loop`, or `poll` returns. -/
inductive ConsoleEvent where
  | names (io : LineIo)
  | poll (gRunning : Bool) (result : ConsolePoll)

/-- The client behind its standard input. -/
abbrev Console := Keyboard (Option World × (Nat → Io))

def ConsolePoll.toPoll : ConsolePoll → PollResult Console
  | .interrupted => .interrupted
  | .failed => .failed
  | .timeout io =>
    .timeout fun k => ({ k with state := (tickHandler io k.state).1 }, (tickHandler io k.state).2)
  | .ready socket stdin =>
    .ready socket (stdin.map fun io => Keyboard.take (clientLines io) .input)

def ConsoleEvent.toEvent : ConsoleEvent → SessionEvent Console
  | .names io => .credentials (Keyboard.take (clientLines io) .names)
  | .poll gRunning result => .poll gRunning result.toPoll

/-- The answers to what a line does meet a condition. -/
def ConsoleEvent.AllIo (Q : Io → Prop) : ConsoleEvent → Prop
  | .names io => Q io.file
  | .poll _ (.ready _ (some io)) => Q io.file
  | _ => True

/-- What the client finds: its standard input, the files, and the answers to what frames do and
    to the `file_reset_all` behind the login. -/
structure Surroundings where
  stdin : Stdin
  disk : Bytes → Option Bytes
  frameIo : Nat → Io
  resetIo : Slot → Io

namespace Surroundings

variable (env : Surroundings)

structure AllIo (Q : Io → Prop) : Prop where
  frame : ∀ n, Q (env.frameIo n)
  reset : ∀ i, Q (env.resetIo i)

/-- The client with its handlers. -/
def client : Handlers Console := (clientHandlers env.resetIo).behindKeyboard

/-- The client before its first event. -/
def start : Session Console :=
  .connect ⟨env.stdin, [], (some (World.init env.disk), env.frameIo)⟩

/-- The client after some events. -/
def session (events : List ConsoleEvent) : Session Console :=
  env.start.run env.client (events.map ConsoleEvent.toEvent)

/-- The world of the client after some events; `none` once a frame was read past its end. -/
def world (events : List ConsoleEvent) : Option World := (env.session events).app.state.state.1

end Surroundings

/-! ### Every session is a sequence of actions -/

section Console

variable {Q : Io → Prop} {before : Option World}

/-- The client came from `before` by allowed actions. -/
structure DoesFrom (Q : Io → Prop) (before : Option World) (k : Console) : Prop where
  frameIo : ∀ n, Q (k.state.2 n)
  does : ∀ w' ∈ k.state.1, ∃ w ∈ before, World.Does Q w w'

/-- The state behind standard input takes another step. -/
theorem DoesFrom.bind {k k' : Console} (h : DoesFrom Q before k) {f : World → Option World}
    (hf : ∀ w, ∀ w' ∈ f w, World.Does Q w w') (hworld : k'.state.1 = k.state.1.bind f)
    (hio : ∀ n, Q (k'.state.2 n)) : DoesFrom Q before k' := by
  refine ⟨hio, fun w'' hw'' => ?_⟩
  rw [hworld] at hw''
  obtain ⟨w', hw', hf'⟩ := Option.bind_eq_some_iff.mp hw''
  obtain ⟨w, hw, hdoes⟩ := h.does w' hw'
  exact ⟨w, hw, hdoes.trans (hf w' w'' hf')⟩

/-- The handlers only act in the allowed ways. -/
theorem keeps_client {env : Surroundings} (hreset : ∀ i, Q (env.resetIo i)) :
    env.client.Keeps (DoesFrom Q before) where
  login k type payload h := by
    refine h.bind (fun w w' hw' => ?_) rfl h.frameIo
    obtain ⟨res, hres, rfl⟩ := Option.map_eq_some_iff.mp hw'
    exact World.does_loginHandleFrame hres
  frame k type payload plen h :=
    h.bind (fun w w' hw' => World.does_appHandleFrame (h.frameIo 0) hw') rfl
      fun n => h.frameIo (n + 1)
  reset k h := by
    refine h.bind (f := fun w => some (w.fileResetAll env.resetIo)) (fun w w' hw' => ?_) ?_
      h.frameIo
    · obtain rfl := Option.some.inj hw'
      exact .file (.reset env.resetIo) hreset
    · exact Option.map_eq_bind

/-- **Standard input**: whatever is read there, the line or the names lead to allowed actions. -/
theorem DoesFrom.take {k : Console} (h : DoesFrom Q before k) {io : LineIo} (hio : Q io.file)
    (reading : Reading) : DoesFrom Q before (k.take (clientLines io) reading).1 := by
  have hfits := reading.fits k.stdin
  rw [Keyboard.take]
  generalize reading.read.run k.stdin = res at hfits ⊢
  obtain ⟨input, stdin⟩ := res
  obtain ⟨stdin₀, inputs, ⟨state, ios⟩⟩ := k
  have hsame : DoesFrom Q before ⟨stdin, inputs ++ [input], (state, ios)⟩ :=
    ⟨h.frameIo, h.does⟩
  have hnext {f : World → World} (hf : ∀ w, World.Does Q w (f w)) (w : World)
      (hstate : state = some w) : DoesFrom Q before
        ⟨stdin, inputs ++ [input], (some (f w), ios)⟩ := by
    refine h.bind (f := fun w => some (f w)) (fun w w' hw' => ?_) ?_ h.frameIo
    · exact Option.some.inj hw' ▸ hf w
    · rw [hstate]
      rfl
  cases input with
  | eof => exact hsame
  | tooLong => exact hsame
  | line text =>
    cases state with
    | none => exact hsame
    | some w => exact hnext (fun w => World.does_commandsHandleLine hio hfits) w rfl
  | login names =>
    cases names with
    | none => exact hsame
    | some names =>
      cases state with
      | none => exact hsame
      | some w => exact hnext (fun w => World.does_commandsLogin io.sendOk hfits) w rfl

/-- So do the events of the console. -/
theorem keeps_consoleEvent {e : ConsoleEvent} (he : e.AllIo Q) :
    e.toEvent.Keeps (DoesFrom Q before) := by
  cases e with
  | names io => exact fun k h => h.take he .names
  | poll gRunning result =>
    cases result with
    | interrupted => trivial
    | failed => trivial
    | timeout io =>
      intro k h
      refine h.bind (f := fun w => some (w.appTick io).1) (fun w w' hw' => ?_) ?_ ?_
      · obtain rfl := Option.some.inj hw'
        rw [World.appTick_eq]
        exact .file (.tick io) trivial
      · obtain ⟨stdin, inputs, ⟨state, ios⟩⟩ := k
        cases state <;> rfl
      · obtain ⟨stdin, inputs, ⟨state, ios⟩⟩ := k
        cases state <;> exact h.frameIo
    | ready socket stdin =>
      cases stdin with
      | none => trivial
      | some io => exact fun k h => h.take he .input

/-- **Every session of the client is a sequence of actions**, whatever the server sends, the user
    types and the outside answers. -/
theorem does_console {env : Surroundings} (henv : env.AllIo Q) {events : List ConsoleEvent}
    (hevents : ∀ e ∈ events, e.AllIo Q) {w : World} (hw : w ∈ env.world events) :
    World.Does Q (World.init env.disk) w := by
  have hrun : DoesFrom Q (some (World.init env.disk)) (env.session events).app.state := by
    refine Session.run_invariant (keeps_client henv.reset) (fun e he => ?_)
      ⟨henv.frame, fun w hw => ⟨w, hw, .refl Q w⟩⟩
    obtain ⟨e, hmem, rfl⟩ := List.mem_map.mp he
    exact keeps_consoleEvent (hevents e hmem)
  obtain ⟨w₀, hw₀, hdoes⟩ := hrun.does w hw
  obtain rfl := Option.some.inj hw₀
  exact hdoes

end Console

/-! ### What the file module sees -/

/-- An operation on a file, or on the memory of a task. -/
def Effect.OnFile : Effect → Prop
  | .fopenRead _ | .fopen _ | .fwrite _ _ _ | .fclose _ _ | .remove _ _ | .malloc _ _
  | .free _ => True
  | .print _ | .incoming _ | .send _ _ => False

instance (x : Effect) : Decidable x.OnFile := by
  cases x <;> unfold Effect.OnFile <;> infer_instance

/-- The operations on files and memory, oldest first. -/
def World.fileOps (w : World) : List Effect := w.log.filter Effect.OnFile

/-- The calls of the file module among some actions. -/
def fileCalls (actions : List Action) : List FileEvent :=
  actions.filterMap fun
    | .file e => some e
    | _ => none

/-- `v` shows everything that the file module has done in `w`; there may be more lines and frames
    in `w`. -/
structure SameFiles (v w : World) : Prop where
  tasks : v.tasks = w.tasks
  disk : v.disk = w.disk
  fileOps : v.fileOps = w.fileOps
  log : v.log.Sublist w.log

namespace SameFiles

variable {v w : World}

theorem refl (w : World) : SameFiles w w := ⟨rfl, rfl, rfl, List.Sublist.refl _⟩

/-- A line or a frame that the file module has nothing to do with. -/
theorem emit (h : SameFiles v w) {x : Effect} (hx : ¬ x.OnFile) : SameFiles v (w.emit x) where
  tasks := h.tasks
  disk := h.disk
  fileOps := by
    rw [h.fileOps, World.fileOps, World.fileOps, World.emit, List.filter_append]
    simp [hx]
  log := h.log.trans (List.sublist_append_left _ _)

/-- **Step lemma.** A call of the module does the same in both. -/
theorem step (h : SameFiles v w) (e : FileEvent) : SameFiles (fileStep v e) (fileStep w e) := by
  have hrun (u : World) :
      fileStep u e = (fileStep { u with log := [] } e).behind u.log := fileRun_eq_behind u [e]
  have hbare : { v with log := [] } = ({ w with log := [] } : World) := by
    rw [World.mk.injEq]
    exact ⟨h.tasks, h.disk, rfl⟩
  rw [hrun v, hrun w, hbare]
  refine ⟨rfl, rfl, ?_, h.log.append_right _⟩
  rw [World.fileOps, World.fileOps, World.log_behind, World.log_behind, List.filter_append,
    List.filter_append]
  exact congrArg (· ++ _) h.fileOps

/-- **Run lemma.** -/
theorem acts (h : SameFiles v w) (actions : List Action) :
    SameFiles (fileRun v (fileCalls actions)) (w.acts actions) := by
  induction actions generalizing v w with
  | nil => exact h
  | cons a actions ih =>
    cases a with
    | file e => exact ih (h.step e)
    | print text => exact ih (h.emit id)
    | incoming text => exact ih (h.emit id)
    | send frame ok => exact ih (h.emit id)

end SameFiles

/-- The calls of the module among some actions do with files what the actions do. -/
theorem SameFiles.of_does {Q : Io → Prop} {disk : Bytes → Option Bytes} {w : World}
    (h : World.Does Q (World.init disk) w) :
    ∃ calls : List FileEvent, (∀ e ∈ calls, e.AllIo Q) ∧
      SameFiles (fileRun (World.init disk) calls) w := by
  obtain ⟨actions, hallowed, rfl⟩ := h
  refine ⟨fileCalls actions, fun e he => ?_, (SameFiles.refl _).acts actions⟩
  obtain ⟨a, ha, hcall⟩ := List.mem_filterMap.mp he
  cases a with
  | file e' =>
    obtain rfl := Option.some.inj hcall
    exact hallowed _ ha
  | _ => exact absurd hcall (by simp)

/-- **The client refines its file module.** Whatever the server sends, the user types and the
    outside answers, as long as no frame is read past the bytes that were received: the tasks, the
    files and all that was done with files and memory are those of a plain sequence of calls of
    the file module, started over the same files; its lines and frames are among those of the
    client. -/
theorem console_refines {Q : Io → Prop} {env : Surroundings} (henv : env.AllIo Q)
    {events : List ConsoleEvent} (hevents : ∀ e ∈ events, e.AllIo Q) {w : World}
    (hw : w ∈ env.world events) :
    ∃ calls : List FileEvent, (∀ e ∈ calls, e.AllIo Q) ∧
      SameFiles (fileRun (World.init env.disk) calls) w :=
  SameFiles.of_does (does_console henv hevents hw)

/-- A file of one byte is offered. -/
def offeredFrame : Frame :=
  ⟨msgServerMsg,
    utf8 "[Server] Incoming file transfer #7 from al: 'b' (1 bytes). Accept or reject?" ++ [0],
    by decide⟩
def offeredInitFrame : Frame :=
  ⟨msgFileInit, utf8 "al" ++ [0] ++ utf8 "b" ++ [0] ++ utf8 "1" ++ [0], by decide⟩

def lineIo : LineIo := ⟨true, ⟨true, true, 1, true, true, SendfileIo.fsizeLong_one⟩, Io.ok⟩

/-- eve logs in, and will accept #7; there are no files, and everything succeeds. -/
def eve : Surroundings where
  stdin := ofBatches [⟨utf8 "eve\n", by decide⟩, ⟨utf8 "pass\n", by decide⟩,
    ⟨utf8 "/accept 7\n", by decide⟩]
  disk _ := none
  frameIo _ := Io.ok
  resetIo _ := Io.ok

/-- Names, the Welcome, the offer, the line. -/
def acceptance : List ConsoleEvent :=
  [.names lineIo, .poll true (.ready (some (true, .data welcomeFrame.encode)) none),
    .poll true (.ready (some (true, .data (offeredFrame.encode ++ offeredInitFrame.encode))) none),
    .poll true (.ready none (some lineIo))]

/-- The file is open at the end. -/
theorem exists_acceptance :
    ∃ w ∈ eve.world acceptance, w.openPath 0 = some (utf8 "downloads/b") := by
  have hopen : ((eve.world acceptance).bind fun w => w.openPath 0) =
      some (utf8 "downloads/b") := by decide
  exact Option.bind_eq_some_iff.mp hopen

theorem console_refines_acceptance :
    ∃ w ∈ eve.world acceptance, w.openPath 0 = some (utf8 "downloads/b") ∧
      ∃ calls : List FileEvent, (∀ e ∈ calls, e.AllIo fun io => io = Io.ok) ∧
        SameFiles (fileRun (World.init fun _ => none) calls) w := by
  obtain ⟨w, hw, hopen⟩ := exists_acceptance
  have henv : eve.AllIo fun io => io = Io.ok := ⟨fun _ => rfl, fun _ => rfl⟩
  exact ⟨w, hw, hopen, console_refines henv (by simp [acceptance, ConsoleEvent.AllIo, lineIo]) hw⟩

end TCPClient
