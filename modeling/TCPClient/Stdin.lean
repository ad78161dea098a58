import TCPClient.Utils
import TCPClient.Lib.Reader
import Mathlib.Data.List.DropRight

namespace TCPClient

open Octets Reader

/-!
# `commands.c` and `app.c` — reading standard input

`fgets` and `getchar` on a standard input that is a pipe, and what the client reads with them:
the prompts of `commands_login` and the line of `app_handle_stdin`, with the prompts behind a
line `/login`.  A batch is what one `read` of stdio gets from the pipe.  Everything is read through
`Reader.next`, so all of it is `Steady`: what is read is a function of the bytes, not of the
batches they came in.
-/

abbrev Stdin := Reader UInt8

/-- `APP_INPUT_MAX`. -/
def appInputMax : Nat := maxMessageLen + 1

/-! ### The C library -/

/-- The characters `fgets` stores: at most `n`, up to and including a newline. -/
def fgetsLoop : Nat → StateM Stdin Bytes
  | 0 => pure []
  | n + 1 => do
    match ← next with
    | none => pure []
    | some b => if b = 10 then pure [10] else return b :: (← fgetsLoop n)

/-- `fgets(buf, size, stdin)`; NULL if there is nothing in front of the end of file. -/
def fgets (size : Nat) : StateM Stdin (Option Bytes) := do
  let line ← fgetsLoop (size - 1)
  return if line = [] then none else some line

/-- `strchr(line, '\n') != NULL`: the search ends at the first NUL. -/
def HasNewline (line : Bytes) : Prop := 10 ∈ line.takeWhile (· ≠ 0)

instance (line : Bytes) : Decidable (HasNewline line) :=
  inferInstanceAs (Decidable (10 ∈ line.takeWhile (· ≠ 0)))

/-- `utils_trim_newline`. -/
def utilsTrimNewline (str : Bytes) : Bytes :=
  (str.takeWhile (· ≠ 0)).rdropWhile fun b => b = 10 ∨ b = 13

/-! ### `commands.c` -/

/-- The loop of `drain_stdin`: `getchar` to a newline or the end of file. -/
def drainLoop : Nat → StateM Stdin Unit
  | 0 => pure ()
  | n + 1 => do
    match ← next with
    | none => pure ()
    | some b => if b = 10 then pure () else drainLoop n

/-- `drain_stdin`: every round takes a byte. -/
def drainStdin : StateM Stdin Unit := do drainLoop (← ahead).length

/-- The loop of `prompt_line`. -/
def promptLoop (size : Nat) : Nat → StateM Stdin (Option Bytes)
  | 0 => pure none
  | n + 1 => do
    match ← fgets size with
    | none => pure none
    | some line =>
      if HasNewline line then pure (some (utilsTrimNewline line))
      else do
        drainStdin
        promptLoop size n

/-- `prompt_line`: a line, or `none` at the end of file; every round takes a byte. -/
def promptLine (size : Nat) : StateM Stdin (Option Bytes) := do
  promptLoop size ((← ahead).length + 1)

/-- The loop of `commands_login` in front of `protocol_build_text2`. -/
def namesLoop : Nat → StateM Stdin (Option (Bytes × Bytes))
  | 0 => pure none
  | n + 1 => do
    match ← promptLine maxUsernameLen with
    | none => pure none
    | some user =>
      match ← promptLine maxPasswordLen with
      | none => pure none
      | some pass =>
        if user = [] ∨ pass = [] then namesLoop n else pure (some (user, pass))

/-- The prompts of `commands_login`: every round takes a byte. -/
def readNames : StateM Stdin (Option (Bytes × Bytes)) := do namesLoop ((← ahead).length + 1)

/-! ### `app.c` -/

/-- What `app_handle_stdin` finds: the end of file, a line that is discarded, a line for
    `commands_handle_line`, or the line `/login` with the names behind it. -/
inductive Input where
  | eof
  | tooLong
  | line (text : Bytes)
  | login (names : Option (Bytes × Bytes))
  deriving DecidableEq, Repr

/-- The reading part of `app_handle_stdin`. -/
def readInput : StateM Stdin Input := do
  match ← fgets appInputMax with
  | none => pure .eof
  | some line =>
    if HasNewline line then
      -- `commands_handle_line` asks for the names itself, on the same standard input
      if utilsTrimNewline line = utf8 "/login" then return .login (← readNames)
      else pure (.line (utilsTrimNewline line))
    else do
      -- also a last line without a newline ends here, and is discarded
      drainStdin
      pure .tooLong

/-! ### Every loop ends -/

theorem next_nil {s : Stdin} (hs : s.stream = []) :
    ∃ s', next.run s = (none, s') ∧ s'.stream = [] := by
  obtain ⟨hhead, htail⟩ := s.take_stream
  rw [hs] at hhead htail
  exact ⟨s.take.2, Prod.ext hhead rfl, htail⟩

theorem next_cons {s : Stdin} {b : UInt8} {bs : Bytes} (hs : s.stream = b :: bs) :
    ∃ s', next.run s = (some b, s') ∧ s'.stream = bs := by
  obtain ⟨hhead, htail⟩ := s.take_stream
  rw [hs] at hhead htail
  exact ⟨s.take.2, Prod.ext hhead rfl, htail⟩

/-- `fgets` moves characters from the stream into the line. -/
theorem fgetsLoop_stream (n : Nat) (s : Stdin) :
    ((fgetsLoop n).run s).1 ++ ((fgetsLoop n).run s).2.stream = s.stream := by
  induction n generalizing s with
  | zero => rfl
  | succ n ih =>
    rw [fgetsLoop, StateT.run_bind]
    cases hs : s.stream with
    | nil =>
      obtain ⟨s', hnext, hs'⟩ := next_nil hs
      rw [hnext]
      exact hs'
    | cons b bs =>
      obtain ⟨s', hnext, rfl⟩ := next_cons hs
      rw [hnext]
      by_cases hb : b = 10
      · subst hb
        rfl
      · -- the byte goes to the line, the rest is the next round's
        have hrun : ((if b = 10 then pure [10] else return b :: (← fgetsLoop n) :
            StateM Stdin Bytes).run s') =
            (b :: ((fgetsLoop n).run s').1, ((fgetsLoop n).run s').2) := by
          rw [if_neg hb]
          rfl
        refine (congrArg (fun p : Bytes × Stdin => p.1 ++ p.2.stream) hrun).trans ?_
        exact congrArg (b :: ·) (ih s')

/-- A line is at least one byte. -/
theorem fgets_shorter {size : Nat} {s s' : Stdin} {line : Bytes}
    (h : (fgets size).run s = (some line, s')) : s'.stream.length < s.stream.length := by
  have hsplit := congrArg List.length (fgetsLoop_stream (size - 1) s)
  rw [fgets, StateT.run_bind] at h
  obtain ⟨hline, rfl⟩ := Prod.mk.inj h
  -- an empty line would have been the end of file
  have hne : ((fgetsLoop (size - 1)).run s).1 ≠ [] := by
    intro hnil
    rw [if_pos hnil] at hline
    exact absurd hline (by simp)
  have hpos := List.length_pos_of_ne_nil hne
  rw [List.length_append] at hsplit
  show ((fgetsLoop (size - 1)).run s).2.stream.length < _
  omega

/-- `drain_stdin` ends behind the first newline. -/
theorem drainStdin_stream (s : Stdin) :
    (drainStdin.run s).2.stream = (s.stream.dropWhile (· ≠ 10)).tail := by
  have hloop (n : Nat) (s : Stdin) (hn : s.stream.length ≤ n) :
      ((drainLoop n).run s).2.stream = (s.stream.dropWhile (· ≠ 10)).tail := by
    induction n generalizing s with
    | zero =>
      rw [List.length_eq_zero_iff.mp (Nat.le_zero.mp hn)]
      exact List.length_eq_zero_iff.mp (Nat.le_zero.mp hn)
    | succ n ih =>
      rw [drainLoop, StateT.run_bind]
      cases hs : s.stream with
      | nil =>
        obtain ⟨s', hnext, hs'⟩ := next_nil hs
        rw [hnext]
        exact hs'
      | cons b bs =>
        obtain ⟨s', hnext, rfl⟩ := next_cons hs
        rw [hnext]
        rw [hs, List.length_cons] at hn
        by_cases hb : b = 10
        · subst hb
          rfl
        · rw [List.dropWhile_cons_of_pos (by simpa using hb)]
          show ((if b = 10 then pure () else drainLoop n : StateM Stdin Unit).run s').2.stream = _
          rw [if_neg hb]
          exact ih s' (by omega)
  exact hloop _ s (Nat.le_refl _)

theorem drainStdin_le (s : Stdin) : (drainStdin.run s).2.stream.length ≤ s.stream.length := by
  rw [drainStdin_stream, List.length_tail]
  exact (Nat.sub_le _ _).trans (List.length_dropWhile_le _ _)

/-- More rounds of `prompt_line` than there are bytes change nothing. -/
theorem promptLoop_fuel (size : Nat) {n : Nat} {s : Stdin} (h : s.stream.length < n) :
    (promptLoop size (n + 1)).run s = (promptLoop size n).run s := by
  induction n generalizing s with
  | zero => exact absurd h (by simp)
  | succ n ih =>
    rw [promptLoop, promptLoop, StateT.run_bind, StateT.run_bind]
    cases hline : (fgets size).run s with
    | mk line s' =>
      cases line with
      | none => rfl
      | some line =>
        have hshort := fgets_shorter hline
        have hdrain := drainStdin_le s'
        by_cases hnewline : HasNewline line
        · show (ite _ _ _ : StateM Stdin (Option Bytes)).run s' =
            (ite _ _ _ : StateM Stdin (Option Bytes)).run s'
          rw [if_pos hnewline, if_pos hnewline]
        · show (ite _ _ _ : StateM Stdin (Option Bytes)).run s' =
            (ite _ _ _ : StateM Stdin (Option Bytes)).run s'
          rw [if_neg hnewline, if_neg hnewline]
          -- a line was taken, so what is left needs one round less
          exact ih (s := (drainStdin.run s').2) (Nat.lt_of_le_of_lt hdrain (by omega))

theorem promptLoop_shorter {size n : Nat} {s s' : Stdin} {text : Bytes}
    (h : (promptLoop size n).run s = (some text, s')) : s'.stream.length < s.stream.length := by
  induction n generalizing s with
  | zero => exact absurd (congrArg Prod.fst h) (by simp [promptLoop])
  | succ n ih =>
    rw [promptLoop, StateT.run_bind] at h
    cases hline : (fgets size).run s with
    | mk line s₁ =>
      rw [hline] at h
      cases line with
      | none => exact nomatch show none = some text from congrArg Prod.fst h
      | some line =>
        have hshort := fgets_shorter hline
        replace h : (if HasNewline line then pure (some (utilsTrimNewline line))
            else do drainStdin; promptLoop size n : StateM Stdin (Option Bytes)).run s₁ =
              (some text, s') := h
        by_cases hnewline : HasNewline line
        · rw [if_pos hnewline] at h
          exact (Prod.mk.inj h).2 ▸ hshort
        · rw [if_neg hnewline] at h
          have hdrain := drainStdin_le s₁
          have hrest := ih (s := (drainStdin.run s₁).2) h
          omega

/-- More rounds of the prompts than there are bytes change nothing. -/
theorem namesLoop_fuel {n : Nat} {s : Stdin} (h : s.stream.length < n) :
    (namesLoop (n + 1)).run s = (namesLoop n).run s := by
  induction n generalizing s with
  | zero => exact absurd h (by simp)
  | succ n ih =>
    rw [namesLoop, namesLoop, StateT.run_bind, StateT.run_bind]
    cases huser : (promptLine maxUsernameLen).run s with
    | mk user s₁ =>
      cases user with
      | none => rfl
      | some user =>
        have hshort : s₁.stream.length < s.stream.length := promptLoop_shorter huser
        show ((promptLine maxPasswordLen >>= _).run s₁) = ((promptLine maxPasswordLen >>= _).run s₁)
        rw [StateT.run_bind, StateT.run_bind]
        cases hpass : (promptLine maxPasswordLen).run s₁ with
        | mk pass s₂ =>
          cases pass with
          | none => rfl
          | some pass =>
            have hshort' : s₂.stream.length < s₁.stream.length := promptLoop_shorter hpass
            show (ite _ _ _ : StateM Stdin (Option (Bytes × Bytes))).run s₂ =
              (ite _ _ _ : StateM Stdin (Option (Bytes × Bytes))).run s₂
            by_cases hempty : user = [] ∨ pass = []
            · -- the prompts start again, behind two lines
              rw [if_pos hempty, if_pos hempty]
              exact ih (by omega)
            · rw [if_neg hempty, if_neg hempty]

/-! ### Reading does not see the batches -/

theorem steady_fgetsLoop (n : Nat) : Steady (fgetsLoop n) := by
  induction n with
  | zero => exact .pure []
  | succ n ih =>
    refine .bind .next fun ch => ?_
    cases ch with
    | none => exact .pure []
    | some b =>
      dsimp only
      split_ifs
      · exact .pure [10]
      · exact .bind ih fun line => .pure (b :: line)

theorem steady_fgets (size : Nat) : Steady (fgets size) :=
  .bind (steady_fgetsLoop (size - 1)) fun _ => .pure _

theorem steady_drainLoop (n : Nat) : Steady (drainLoop n) := by
  induction n with
  | zero => exact .pure ()
  | succ n ih =>
    refine .bind .next fun ch => ?_
    cases ch with
    | none => exact .pure ()
    | some b =>
      dsimp only
      split_ifs
      · exact .pure ()
      · exact ih

theorem steady_drainStdin : Steady drainStdin :=
  .bind .ahead fun xs => steady_drainLoop xs.length

theorem steady_promptLoop (size n : Nat) : Steady (promptLoop size n) := by
  induction n with
  | zero => exact .pure none
  | succ n ih =>
    refine .bind (steady_fgets size) fun line => ?_
    cases line with
    | none => exact .pure none
    | some line =>
      dsimp only
      split_ifs
      · exact .pure _
      · exact .bind steady_drainStdin fun _ => ih

theorem steady_promptLine (size : Nat) : Steady (promptLine size) :=
  .bind .ahead fun xs => steady_promptLoop size (xs.length + 1)

theorem steady_namesLoop (n : Nat) : Steady (namesLoop n) := by
  induction n with
  | zero => exact .pure none
  | succ n ih =>
    refine .bind (steady_promptLine maxUsernameLen) fun user => ?_
    cases user with
    | none => exact .pure none
    | some user =>
      refine .bind (steady_promptLine maxPasswordLen) fun pass => ?_
      cases pass with
      | none => exact .pure none
      | some pass =>
        dsimp only
        split_ifs
        · exact ih
        · exact .pure _

theorem steady_readNames : Steady readNames :=
  .bind .ahead fun xs => steady_namesLoop (xs.length + 1)

/-- **What a call of `app_handle_stdin` reads** is a function of the bytes. -/
theorem steady_readInput : Steady readInput := by
  refine .bind (steady_fgets appInputMax) fun line => ?_
  cases line with
  | none => exact .pure _
  | some line =>
    dsimp only
    split_ifs
    · exact .bind steady_readNames fun names => .pure _
    · exact .pure _
    · exact .bind steady_drainStdin fun _ => .pure _

end TCPClient
