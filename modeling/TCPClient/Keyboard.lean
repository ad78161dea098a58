import TCPClient.SessionMap
import TCPClient.Stdin

namespace TCPClient

open Octets Reader

/-!
# The client behind its standard input

Who reads from standard input, the prompts of `login_loop` or `app_handle_stdin`, and what the
client does with what was read.
-/

/-- What the client does with what it reads: the names of a login, or a line.  Both answer
    whether the connection is still used. -/
structure LineHandlers (τ : Type) where
  login : τ → Bytes × Bytes → τ × Bool
  line : τ → Bytes → τ × Bool

/-- `commands_handle_line` and `commands_login` behind what was read. -/
def LineHandlers.act {τ : Type} (lines : LineHandlers τ) (state : τ) : Input → τ × Bool
  | .eof | .login none => (state, false)
  | .tooLong => (state, true)
  | .line text => lines.line state text
  | .login (some names) => lines.login state names

/-- Who reads: the prompts of `login_loop`, or `app_handle_stdin`. -/
inductive Reading where
  | names
  | input
  deriving DecidableEq, Repr

def Reading.read : Reading → StateM Stdin Input
  | .names => do return .login (← readNames)
  | .input => readInput

theorem Reading.steady (reading : Reading) : Steady reading.read := by
  cases reading with
  | names => exact .bind steady_readNames fun _ => .pure _
  | input => exact steady_readInput

/-- Standard input in front of the state of the client.  `inputs` records what has been read; no
    function reads it. -/
structure Keyboard (τ : Type) where
  stdin : Stdin
  inputs : List Input
  state : τ

/-- Read, and act on what was read: `commands_login` in `login_loop`, and `app_handle_stdin`. -/
def Keyboard.take {τ : Type} (lines : LineHandlers τ) (reading : Reading) (k : Keyboard τ) :
    Keyboard τ × Bool :=
  match reading.read.run k.stdin with
  | (input, stdin) =>
    match lines.act k.state input with
    | (state, go) => (⟨stdin, k.inputs ++ [input], state⟩, go)

theorem Keyboard.take_eq {τ : Type} (lines : LineHandlers τ) (reading : Reading)
    (k : Keyboard τ) :
    k.take lines reading =
      (⟨(reading.read.run k.stdin).2, k.inputs ++ [(reading.read.run k.stdin).1],
          (lines.act k.state (reading.read.run k.stdin).1).1⟩,
        (lines.act k.state (reading.read.run k.stdin).1).2) := rfl

/-- The handlers of the frames do not touch standard input. -/
def Handlers.behindKeyboard {τ : Type} (client : Handlers τ) : Handlers (Keyboard τ) where
  login k type payload := { k with state := client.login k.state type payload }
  frame k type payload plen := { k with state := client.frame k.state type payload plen }
  reset k := { k with state := client.reset k.state }

/-- What the client does with lines, when the outside answers alike to all of them. -/
def clientLines (io : LineIo) : LineHandlers (Option World × (Nat → Io)) where
  login s names :=
    match s.1 with
    | none => (s, true)
    | some w => ((some (w.commandsLogin io.sendOk (some names)).1, s.2),
        (w.commandsLogin io.sendOk (some names)).2 = .ok)
  line s text :=
    match s.1 with
    -- `/quit` ends the loop in every state
    | none => (s, text ≠ utf8 "/quit")
    | some w =>
      let res := w.commandsHandleLine io text (w, .ok)
      ((some res.world, s.2), res.status = .ok ∧ ¬ res.quit)

end TCPClient
