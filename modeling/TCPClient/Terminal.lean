import TCPClient.FileState
import TCPClient.Lib.Flag

namespace TCPClient

open Octets Flag

/-!
# `ui.c` — the prompt on the screen

`prompt_shown` and what is on the screen, over any sequence of calls and anything the user types in
between.  `terminal_screen` says what a message that comes in at any time makes of it.
-/

/-! ### The code -/

/-- `prompt_shown`, and what stdout got so far together with the echo of what was typed. -/
structure Terminal where
  promptShown : Bool
  screen : Bytes
  deriving DecidableEq, Repr

namespace Terminal

def start : Terminal := ⟨false, []⟩

/-- `printf`. -/
def put (t : Terminal) (text : Bytes) : Terminal := { t with screen := t.screen ++ text }

/-- `ui_prompt`. -/
def uiPrompt (t : Terminal) : Terminal :=
  if t.promptShown then t else { t.put (utf8 "> ") with promptShown := true }

/-- `ui_print`. -/
def uiPrint (t : Terminal) (text : Bytes) : Terminal := t.put (text ++ utf8 "\n")

/-- `ui_emit_incoming`, which is also `ui_display_incoming`. -/
def uiEmitIncoming (t : Terminal) (text : Bytes) : Terminal :=
  let t := if t.promptShown then { t.put (utf8 "\n") with promptShown := false } else t
  (t.put (text ++ utf8 "\n")).uiPrompt

end Terminal

/-- What changes the screen: the functions of `ui.c`, the `printf`s of `prompt_line` and
    `commands_login`, and the keys. -/
inductive UiCall where
  | print (text : Bytes)
  | incoming (text : Bytes)
  | prompt
  | label (text : Bytes)
  | typed (text : Bytes)
  deriving DecidableEq, Repr

namespace Terminal

def call (t : Terminal) : UiCall → Terminal
  | .print text => t.uiPrint text
  | .incoming text => t.uiEmitIncoming text
  | .prompt => t.uiPrompt
  | .label text | .typed text => t.put text

def calls (t : Terminal) (cs : List UiCall) : Terminal := cs.foldl call t

end Terminal

/-! ### The prompt as a flag -/

/-- The calls behind which the prompt is on the screen. -/
def UiCall.showsPrompt : UiCall → Bool
  | .incoming _ | .prompt => true
  | _ => false

/-- What a call writes, when the prompt is on the screen or not. -/
def UiCall.text (shown : Bool) : UiCall → Bytes
  | .print text => text ++ utf8 "\n"
  | .incoming text => (if shown then utf8 "\n" else []) ++ (text ++ utf8 "\n> ")
  | .prompt => if shown then [] else utf8 "> "
  | .label text | .typed text => text

/-- **Step lemma**: the prompt is never taken off the screen. -/
theorem Terminal.call_eq (t : Terminal) (c : UiCall) :
    t.call c = ⟨t.promptShown || c.showsPrompt, t.screen ++ c.text t.promptShown⟩ := by
  obtain ⟨shown, screen⟩ := t
  have hend : utf8 "\n> " = utf8 "\n" ++ utf8 "> " := by decide
  cases c with
  | print text => simp [call, uiPrint, put, UiCall.showsPrompt, UiCall.text]
  | prompt => cases shown <;> simp [call, uiPrompt, put, UiCall.showsPrompt, UiCall.text]
  | label text => simp [call, put, UiCall.showsPrompt, UiCall.text]
  | typed text => simp [call, put, UiCall.showsPrompt, UiCall.text]
  | incoming text =>
    cases shown <;>
      simp [call, uiEmitIncoming, uiPrompt, put, UiCall.showsPrompt, UiCall.text, hend]

/-- **Run lemma.** -/
theorem Terminal.calls_eq (t : Terminal) (cs : List UiCall) :
    t.calls cs = ⟨t.promptShown || cs.any UiCall.showsPrompt,
      t.screen ++ write UiCall.showsPrompt UiCall.text t.promptShown cs⟩ := by
  induction cs generalizing t with
  | nil => simp [calls, write]
  | cons c cs ih =>
    have hcons : t.calls (c :: cs) = (t.call c).calls cs := rfl
    rw [hcons, ih, call_eq]
    simp [write, Bool.or_assoc]

/-- **The screen around a message.** Whatever was written and typed before: a message that comes in
    stands on a line of its own whenever a prompt has been shown or a message has come before, the
    prompt is shown again behind it, and from there on every call writes its own text, a `ui_prompt`
    nothing. -/
theorem terminal_screen (before after : List UiCall) (text : Bytes) :
    (Terminal.start.calls (before ++ .incoming text :: after)).screen =
      (Terminal.start.calls before).screen ++
        ((if before.any UiCall.showsPrompt then utf8 "\n" else []) ++ (text ++ utf8 "\n> ")) ++
        (after.filter fun c => c ≠ .prompt).flatMap (UiCall.text true) := by
  have hsilent (c : UiCall) (hc : decide (c ≠ .prompt) = false) : c.text true = [] := by
    obtain rfl : c = .prompt := by simpa using hc
    rfl
  have hbehind := write_filter UiCall.showsPrompt UiCall.text hsilent after
  rw [write_true] at hbehind
  rw [Terminal.calls_eq, Terminal.calls_eq, write_append, hbehind]
  simp [write, UiCall.showsPrompt, UiCall.text, Terminal.start]

/-- A message in the middle of a line, and the next line without a prompt. -/
example :
    (Terminal.start.calls
      [.prompt, .typed (utf8 "hel"), .incoming (utf8 "al: hi"), .typed (utf8 "/help\n"),
        .print (utf8 "..."), .prompt]).screen = utf8 "> hel\nal: hi\n> /help\n...\n" := by
  decide

end TCPClient
