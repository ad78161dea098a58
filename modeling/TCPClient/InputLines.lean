import TCPClient.Lines

namespace TCPClient

open Octets Reader

/-!
# The lines of standard input

A line of standard input is a command, or the answer to a prompt of `commands_login`; which one,
follows from the lines in front of it.

* `Asked` — what a line is read for, what it hands over, and what the next one is read for.
* `walk` — one line behind the other.  `lineOf` takes every line on its own, and is what a stream
  is meant to say; `roundOf` is what the rounds of the client make of it.
* `comes_readInput` — a call of `app_handle_stdin` is a sequence of rounds.
* `lines_framed_iff` — when the client finds the lines that are there.
-/

/-- What a line is read for: a command of `app_handle_stdin`, or the answer to one of the two
    prompts of `commands_login`. -/
inductive Asked where
  | command
  | user
  | pass (user : Bytes)
  deriving DecidableEq, Repr

namespace Asked

/-- The buffer that `fgets` is given. -/
def size : Asked → Nat
  | .command => appInputMax
  | .user => maxUsernameLen
  | .pass _ => maxPasswordLen

/-- The longest line that leaves room for its newline and for the NUL behind it. -/
def limit : Asked → Nat
  | .command => 65534
  | .user => maxUsernameLen - 2
  | .pass _ => maxPasswordLen - 2

/-- What the line behind this one is read for. -/
def next : Asked → Taken → Asked
  | .command, .text line => if line = utf8 "/login" then .user else .command
  | .user, .text name => .pass name
  | .pass name, .text word => if name = [] ∨ word = [] then .user else .command
  | asked, .discarded => asked
  | _, .eof => .command

/-- What the line completes: a command, or the answers to the prompts. -/
def hands : Asked → Taken → List Input
  | .command, .eof => [.eof]
  | .command, .discarded => [.tooLong]
  | .command, .text line => if line = utf8 "/login" then [] else [.line line]
  | .user, .text _ => []
  | .pass name, .text word =>
    if name = [] ∨ word = [] then [] else [.login (some (name, word))]
  | .user, .discarded | .pass _, .discarded => []
  | .user, .eof | .pass _, .eof => [.login none]

/-- What is read for behind some lines. -/
def after (asked : Asked) (lines : List Taken) : Asked := lines.foldl next asked

/-- What some lines complete. -/
def inputs : Asked → List Taken → List Input
  | _, [] => []
  | asked, line :: lines => asked.hands line ++ (asked.next line).inputs lines

theorem limit_eq (asked : Asked) : asked.limit = asked.size - 2 := by
  cases asked <;> rfl

theorem two_le_size (asked : Asked) : 2 ≤ asked.size := by
  cases asked <;> exact Nat.le_of_ble_eq_true rfl

/-- A line that leads to a command hands something over. -/
theorem hands_ne_nil {asked : Asked} {line : Taken} (h : asked.next line = .command) :
    asked.hands line ≠ [] := by
  cases line with
  | eof => cases asked <;> simp [hands]
  | discarded =>
    obtain rfl : asked = .command := by cases asked <;> exact h
    simp [hands]
  | text line =>
    cases asked with
    | user => exact absurd h (by simp [next])
    | command =>
      simp only [next, hands] at h ⊢
      split_ifs at h ⊢
      simp
    | pass name =>
      simp only [next, hands] at h ⊢
      split_ifs at h ⊢
      simp

/-- So lines that hand over nothing do not lead back to a command. -/
theorem eq_nil_of_inputs {asked : Asked} {lines : List Taken}
    (hafter : asked.after lines = .command) (hinputs : asked.inputs lines = []) :
    asked = .command ∧ lines = [] := by
  induction lines generalizing asked with
  | nil => exact ⟨hafter, rfl⟩
  | cons line lines ih =>
    obtain ⟨hfirst, hrest⟩ := List.append_eq_nil_iff.mp hinputs
    exact absurd hfirst (hands_ne_nil (ih hafter hrest).1)

theorem after_append (asked : Asked) (lines lines' : List Taken) :
    asked.after (lines ++ lines') = (asked.after lines).after lines' := List.foldl_append

theorem inputs_append (asked : Asked) (lines lines' : List Taken) :
    asked.inputs (lines ++ lines') = asked.inputs lines ++ (asked.after lines).inputs lines' := by
  induction lines generalizing asked with
  | nil => rfl
  | cons line lines ih =>
    rw [List.cons_append, inputs, ih, inputs, List.append_assoc]
    rfl

end Asked

/-! ### One line behind the other -/

/-- `n` lines and what is behind them; `take` says what is made of a line and where the next one
    starts. -/
def walk (take : Nat → Bytes → Taken × Bytes) : Nat → Asked → Bytes → List Taken × Bytes
  | 0, _, stream => ([], stream)
  | n + 1, asked, stream =>
    let (line, rest) := take asked.limit stream
    let (lines, last) := walk take n (asked.next line) rest
    (line :: lines, last)

/-- **What the line in front means**: its text without trailing carriage returns, if it has no
    NUL and at most `limit` bytes.  Any other line is discarded, and no line touches the next. -/
def lineOf (limit : Nat) (stream : Bytes) : Taken × Bytes :=
  if stream = [] then (.eof, [])
  else if 0 ∈ frontLine stream ∨ limit < (frontLine stream).length then
    (.discarded, behindLine stream)
  else (.text (trimmed (frontLine stream)), behindLine stream)

/-- `n` rounds of the client, each for what is asked behind the one before. -/
def readLines : Nat → Asked → StateM Stdin (List Taken)
  | 0, _ => pure []
  | n + 1, asked => do
    let line ← readLine asked.size
    return line :: (← readLines n (asked.next line))

/-- `n` calls of `app_handle_stdin`. -/
def readInputs : Nat → StateM Stdin (List Input)
  | 0 => pure []
  | n + 1 => do
    let input ← readInput
    return input :: (← readInputs n)

theorem walk_succ (take : Nat → Bytes → Taken × Bytes) (n : Nat) (asked : Asked)
    (stream : Bytes) :
    walk take (n + 1) asked stream =
      ((take asked.limit stream).1 ::
          (walk take n (asked.next (take asked.limit stream).1) (take asked.limit stream).2).1,
        (walk take n (asked.next (take asked.limit stream).1) (take asked.limit stream).2).2) :=
  rfl

theorem walk_add (take : Nat → Bytes → Taken × Bytes) (m n : Nat) (asked : Asked)
    (stream : Bytes) :
    walk take (m + n) asked stream =
      ((walk take m asked stream).1 ++ (walk take n (asked.after (walk take m asked stream).1)
          (walk take m asked stream).2).1,
        (walk take n (asked.after (walk take m asked stream).1)
          (walk take m asked stream).2).2) := by
  induction m generalizing asked stream with
  | zero => rw [Nat.zero_add]; rfl
  | succ m ih =>
    rw [Nat.add_right_comm, walk_succ, ih]
    rfl

theorem length_walk (take : Nat → Bytes → Taken × Bytes) (n : Nat) (asked : Asked)
    (stream : Bytes) : (walk take n asked stream).1.length = n := by
  induction n generalizing asked stream with
  | zero => rfl
  | succ n ih => rw [walk_succ, List.length_cons, ih]

/-- Two walks agree everywhere when they agree on every line that the second one comes to. -/
theorem walk_eq_iff (take take' : Nat → Bytes → Taken × Bytes) (asked : Asked) (stream : Bytes) :
    (∀ n, walk take n asked stream = walk take' n asked stream) ↔
      ∀ n, take (asked.after (walk take' n asked stream).1).limit (walk take' n asked stream).2 =
        take' (asked.after (walk take' n asked stream).1).limit (walk take' n asked stream).2 := by
  constructor
  · intro h n
    induction n generalizing asked stream with
    | zero =>
      obtain ⟨hlines, hrest⟩ := Prod.mk.inj (h 1)
      exact Prod.ext (List.cons.inj hlines).1 hrest
    | succ n ih =>
      have hfirst : take asked.limit stream = take' asked.limit stream := by
        obtain ⟨hlines, hrest⟩ := Prod.mk.inj (h 1)
        exact Prod.ext (List.cons.inj hlines).1 hrest
      refine ih _ _ fun m => ?_
      have hnext := h (m + 1)
      rw [walk_succ, walk_succ, hfirst] at hnext
      obtain ⟨hlines, hrest⟩ := Prod.mk.inj hnext
      exact Prod.ext (List.cons.inj hlines).2 hrest
  · intro h n
    induction n generalizing asked stream with
    | zero => rfl
    | succ n ih =>
      have hfirst : take asked.limit stream = take' asked.limit stream := h 0
      rw [walk_succ, walk_succ, hfirst, ih _ _ fun m => h (m + 1)]

/-- The rounds of the client, by the bytes alone. -/
theorem readLines_run (n : Nat) (asked : Asked) (s : Stdin) :
    ((readLines n asked).run s).1 = (walk roundOf n asked s.stream).1 ∧
      ((readLines n asked).run s).2.stream = (walk roundOf n asked s.stream).2 := by
  induction n generalizing asked s with
  | zero => exact ⟨rfl, rfl⟩
  | succ n ih =>
    obtain ⟨hline, hrest⟩ := readLine_run asked.two_le_size s
    rw [← asked.limit_eq] at hline hrest
    obtain ⟨hlines, hlast⟩ := ih (asked.next ((readLine asked.size).run s).1)
      ((readLine asked.size).run s).2
    rw [walk_succ, ← hline, ← hrest]
    exact ⟨congrArg (List.cons _) hlines, hlast⟩

/-! ### The calls are rounds -/

/-- What `app_handle_stdin` finds behind its round. -/
def inputRest : Taken → StateM Stdin Input
  | .eof => pure .eof
  | .discarded => pure .tooLong
  | .text line =>
    if line = utf8 "/login" then do return .login (← readNames) else pure (.line line)

theorem readInput_eq : readInput = readLine appInputMax >>= inputRest := by
  rw [readInput, readLine, bind_assoc]
  congr
  funext line
  cases line with
  | none => rfl
  | some line =>
    dsimp only
    by_cases hnewline : HasNewline line
    · rw [if_pos hnewline, if_pos hnewline]
      rfl
    · rw [if_neg hnewline, if_neg hnewline]
      rfl

/-- Rounds of the client lead from one line to another, and complete these inputs. -/
def Comes (asked : Asked) (stream : Bytes) (inputs : List Input) (asked' : Asked)
    (rest : Bytes) : Prop :=
  ∃ n, asked.inputs (walk roundOf n asked stream).1 = inputs ∧
    asked.after (walk roundOf n asked stream).1 = asked' ∧ (walk roundOf n asked stream).2 = rest

namespace Comes

variable {asked asked' asked'' : Asked} {stream mid rest : Bytes} {inputs inputs' : List Input}

theorem refl (asked : Asked) (stream : Bytes) : Comes asked stream [] asked stream :=
  ⟨0, rfl, rfl, rfl⟩

theorem trans (h : Comes asked stream inputs asked' mid)
    (h' : Comes asked' mid inputs' asked'' rest) :
    Comes asked stream (inputs ++ inputs') asked'' rest := by
  obtain ⟨m, rfl, rfl, rfl⟩ := h
  obtain ⟨n, rfl, rfl, rfl⟩ := h'
  refine ⟨m + n, ?_, ?_, ?_⟩
  · rw [walk_add, Asked.inputs_append]
  · rw [walk_add, Asked.after_append]
  · rw [walk_add]

/-- One round. -/
theorem round (asked : Asked) {s s' : Stdin} {line : Taken}
    (h : (readLine asked.size).run s = (line, s')) :
    Comes asked s.stream (asked.hands line) (asked.next line) s'.stream := by
  obtain ⟨hline, hrest⟩ := readLine_run asked.two_le_size s
  rw [← asked.limit_eq, h] at hline hrest
  obtain rfl : line = _ := hline
  rw [show s'.stream = _ from hrest]
  exact ⟨1, List.append_nil _, rfl, rfl⟩

/-- **The next input**, and where it ends, follow from the bytes. -/
theorem unique {input input' : Input} {rest' : Bytes}
    (h : Comes asked stream [input] .command rest)
    (h' : Comes asked stream [input'] .command rest') : input = input' ∧ rest = rest' := by
  have hle {input input' : Input} {n n' : Nat} (hn : n ≤ n')
      (hinputs : asked.inputs (walk roundOf n asked stream).1 = [input])
      (hafter : asked.after (walk roundOf n asked stream).1 = .command)
      (hinputs' : asked.inputs (walk roundOf n' asked stream).1 = [input'])
      (hafter' : asked.after (walk roundOf n' asked stream).1 = .command) :
      input = input' ∧ (walk roundOf n asked stream).2 = (walk roundOf n' asked stream).2 := by
    obtain ⟨k, rfl⟩ := Nat.exists_eq_add_of_le hn
    rw [walk_add, Asked.inputs_append, hinputs, hafter] at hinputs'
    rw [walk_add, Asked.after_append, hafter] at hafter'
    obtain ⟨hsame, hnone⟩ := List.cons.inj hinputs'
    -- what follows the first input hands over nothing, so there is nothing
    have hzero := congrArg List.length (Asked.eq_nil_of_inputs hafter' hnone).2
    rw [length_walk, List.length_nil] at hzero
    subst hzero
    exact ⟨hsame, rfl⟩
  obtain ⟨n, hinputs, hafter, rfl⟩ := h
  obtain ⟨n', hinputs', hafter', rfl⟩ := h'
  rcases le_total n n' with hn | hn
  · exact hle hn hinputs hafter hinputs' hafter'
  · obtain ⟨hinput, hrest⟩ := hle hn hinputs' hafter' hinputs hafter
    exact ⟨hinput.symm, hrest.symm⟩

end Comes

/-- What a prompt returns, as a line. -/
def Taken.ofPrompt : Option Bytes → Taken
  | none => .eof
  | some line => .text line

/-- **A prompt** discards lines, and takes one. -/
theorem comes_promptLoop {asked : Asked} (hasked : asked ≠ .command) {n : Nat} {s : Stdin}
    (hn : s.stream.length < n) :
    Comes asked s.stream (asked.hands (.ofPrompt ((promptLoop asked.size n).run s).1))
      (asked.next (.ofPrompt ((promptLoop asked.size n).run s).1))
      ((promptLoop asked.size n).run s).2.stream := by
  induction n generalizing s with
  | zero => exact absurd hn (Nat.not_lt_zero _)
  | succ n ih =>
    rw [promptLoop_succ, StateT.run_bind]
    cases hrun : (readLine asked.size).run s with
    | mk line s' =>
      have hround := Comes.round asked hrun
      cases line with
      | eof => exact hround
      | text line => exact hround
      | discarded =>
        -- the line was there, so the next round has less in front of it
        have hshort : s'.stream.length < s.stream.length := by
          obtain ⟨hline, hrest⟩ := readLine_run asked.two_le_size s
          rw [hrun] at hline hrest
          rw [show s'.stream = _ from hrest]
          apply roundOf_shorter
          intro hnil
          rw [hnil] at hline
          exact absurd hline (by simp [roundOf])
        have hnext : asked.next .discarded = asked := by cases asked <;> rfl
        have hhands : asked.hands .discarded = [] := by
          cases asked with
          | command => exact absurd rfl hasked
          | user => rfl
          | pass name => rfl
        rw [hnext, hhands] at hround
        exact hround.trans (ih (by omega))

/-- The prompts lead to the names, or to the end of the input. -/
theorem comes_namesLoop {n : Nat} {s : Stdin} (hn : s.stream.length < n) :
    Comes .user s.stream [.login ((namesLoop n).run s).1] .command
      ((namesLoop n).run s).2.stream := by
  induction n generalizing s with
  | zero => exact absurd hn (Nat.not_lt_zero _)
  | succ n ih =>
    rw [namesLoop, StateT.run_bind]
    have hname : Comes .user s.stream
        (Asked.user.hands (.ofPrompt ((promptLine maxUsernameLen).run s).1))
        (Asked.user.next (.ofPrompt ((promptLine maxUsernameLen).run s).1))
        ((promptLine maxUsernameLen).run s).2.stream :=
      comes_promptLoop (by simp) (Nat.lt_succ_self _)
    cases huser : (promptLine maxUsernameLen).run s with
    | mk name s₁ =>
      rw [huser] at hname
      cases name with
      | none => exact hname
      | some name =>
        have hshort : s₁.stream.length < s.stream.length := promptLoop_shorter huser
        have hword : Comes (.pass name) s₁.stream
            ((Asked.pass name).hands (.ofPrompt ((promptLine maxPasswordLen).run s₁).1))
            ((Asked.pass name).next (.ofPrompt ((promptLine maxPasswordLen).run s₁).1))
            ((promptLine maxPasswordLen).run s₁).2.stream :=
          comes_promptLoop (by simp) (Nat.lt_succ_self _)
        have hboth := hname.trans hword
        show Comes _ _ [.login ((promptLine maxPasswordLen >>= _).run s₁).1] _
          ((promptLine maxPasswordLen >>= _).run s₁).2.stream
        rw [StateT.run_bind]
        cases hpass : (promptLine maxPasswordLen).run s₁ with
        | mk word s₂ =>
          rw [hpass] at hboth
          cases word with
          | none => exact hboth
          | some word =>
            have hshort' : s₂.stream.length < s₁.stream.length := promptLoop_shorter hpass
            show Comes _ _ [.login ((if name = [] ∨ word = [] then namesLoop n
                else pure (some (name, word)) : StateM Stdin (Option (Bytes × Bytes))).run s₂).1] _
              ((if name = [] ∨ word = [] then namesLoop n
                else pure (some (name, word)) : StateM Stdin (Option (Bytes × Bytes))).run
                  s₂).2.stream
            simp only [Taken.ofPrompt, Asked.hands, Asked.next] at hboth
            by_cases hempty : name = [] ∨ word = []
            · -- both prompts start again
              rw [if_pos hempty, if_pos hempty] at hboth
              rw [if_pos hempty]
              exact hboth.trans (ih (by omega))
            · rw [if_neg hempty, if_neg hempty] at hboth
              rw [if_neg hempty]
              exact hboth

theorem comes_readNames (s : Stdin) :
    Comes .user s.stream [.login (readNames.run s).1] .command (readNames.run s).2.stream :=
  comes_namesLoop (Nat.lt_succ_self _)

/-- **A call of `app_handle_stdin`** is a sequence of rounds, which completes one input. -/
theorem comes_readInput (s : Stdin) :
    Comes .command s.stream [(readInput.run s).1] .command (readInput.run s).2.stream := by
  rw [readInput_eq, StateT.run_bind]
  cases hrun : (readLine appInputMax).run s with
  | mk line s' =>
    have hround := Comes.round .command hrun
    cases line with
    | eof => exact hround
    | discarded => exact hround
    | text line =>
      show Comes _ _ [((if line = utf8 "/login" then do return .login (← readNames)
          else pure (.line line) : StateM Stdin Input).run s').1] _
        ((if line = utf8 "/login" then do return .login (← readNames)
          else pure (.line line) : StateM Stdin Input).run s').2.stream
      simp only [Asked.hands, Asked.next] at hround
      by_cases hlogin : line = utf8 "/login"
      · rw [if_pos hlogin, if_pos hlogin] at hround
        rw [if_pos hlogin]
        exact hround.trans (comes_readNames s')
      · rw [if_neg hlogin, if_neg hlogin] at hround
        rw [if_neg hlogin]
        exact hround

theorem comes_readInputs (n : Nat) (s : Stdin) :
    Comes .command s.stream ((readInputs n).run s).1 .command
      ((readInputs n).run s).2.stream := by
  induction n generalizing s with
  | zero => exact .refl .command s.stream
  | succ n ih => exact (comes_readInput s).trans (ih (readInput.run s).2)

/-! ### Which lines are found -/

/-- The lines that are not taken for what they are: one with a NUL that fits its buffer, and is
    not the end of the stream; a last one that only lacks its newline. -/
def Misread (limit : Nat) (stream : Bytes) : Prop :=
  (0 ∈ frontLine stream ∧ (frontLine stream).length ≤ limit ∧ behindLine stream ≠ []) ∨
    (stream ≠ [] ∧ 10 ∉ stream ∧ 0 ∉ stream ∧ stream.length ≤ limit)

/-- Where the line starts that is the next one behind `n` lines. -/
def lineStart (n : Nat) (stream : Bytes) : Bytes := (walk lineOf n .command stream).2

/-- What that line is there for. -/
def askedBehind (n : Nat) (stream : Bytes) : Asked :=
  Asked.command.after (walk lineOf n .command stream).1

/-- What the first `n` lines hand over. -/
def handed (n : Nat) (stream : Bytes) : List Input :=
  Asked.command.inputs (walk lineOf n .command stream).1

/-- Every line is read on its own and taken for what it means, the answers to the prompts of
    `/login` included; and what the calls of `app_handle_stdin` find is what the lines up to the
    next command hand over. -/
structure Framed (s : Stdin) : Prop where
  lines : ∀ n, ((readLines n .command).run s).1 = (walk lineOf n .command s.stream).1 ∧
    ((readLines n .command).run s).2.stream = lineStart n s.stream
  calls : ∀ k, ∃ n, ((readInputs k).run s).1 = handed n s.stream ∧
    ((readInputs k).run s).2.stream = lineStart n s.stream ∧ askedBehind n s.stream = .command

theorem lineOf_line {line rest : Bytes} (h : 10 ∉ line) {limit : Nat} :
    lineOf limit (line ++ 10 :: rest) =
      if 0 ∈ line ∨ limit < line.length then (.discarded, rest)
      else (.text (trimmed line), rest) := by
  rw [lineOf, frontLine_line h, behindLine_line h, if_neg (by simp)]

/-- **One round** finds the line in front and ends behind it, unless it misreads it. -/
theorem roundOf_eq_lineOf_iff (limit : Nat) (stream : Bytes) :
    roundOf limit stream = lineOf limit stream ↔ ¬ Misread limit stream := by
  by_cases hmem : 10 ∈ stream
  · obtain ⟨line, rest, rfl, h⟩ := List.eq_append_cons_of_mem hmem
    have hmis : Misread limit (line ++ 10 :: rest) ↔
        0 ∈ line ∧ line.length ≤ limit ∧ rest ≠ [] := by
      rw [Misread, frontLine_line h, behindLine_line h]
      simp
    rw [roundOf_line h, lineOf_line h, hmis]
    by_cases hlong : limit < line.length
    · rw [if_pos hlong, if_pos (Or.inr hlong)]
      exact iff_of_true rfl fun hm => absurd hm.2.1 (by omega)
    · rw [if_neg hlong]
      by_cases hnul : 0 ∈ line
      · rw [if_pos hnul, if_pos (Or.inl hnul), Prod.mk.injEq]
        constructor
        · -- draining from the start of a line changes nothing only at the end of the stream
          rintro ⟨-, hdrain⟩ ⟨-, -, hne⟩
          have hlen := congrArg List.length hdrain
          have hle := List.length_dropWhile_le (fun b : UInt8 => decide (b ≠ 10)) rest
          have hpos := List.length_pos_of_ne_nil hne
          rw [behindLine, List.length_tail] at hlen
          omega
        · intro hend
          have hnil : rest = [] := by
            by_contra hne
            exact hend ⟨hnul, by omega, hne⟩
          exact ⟨rfl, by rw [hnil]; rfl⟩
      · rw [if_neg hnul, if_neg (not_or_intro hnul hlong)]
        exact iff_of_true rfl fun hm => hnul hm.1
  · by_cases hnil : stream = []
    · rw [hnil]
      exact iff_of_true rfl (by simp [Misread, frontLine])
    · rw [roundOf_last hnil hmem, lineOf, if_neg hnil, Misread, frontLine_last hmem,
        behindLine_last hmem]
      by_cases hbad : 0 ∈ stream ∨ limit < stream.length
      · rw [if_pos hbad]
        refine iff_of_true rfl ?_
        rintro (⟨-, -, hne⟩ | ⟨-, -, hnul, hlen⟩)
        · exact hne rfl
        · exact hbad.elim hnul (by omega)
      · rw [if_neg hbad]
        obtain ⟨hnul, hlen⟩ := not_or.mp hbad
        exact iff_of_false (by simp) fun hmis => hmis (Or.inr ⟨hnil, hmem, hnul, by omega⟩)

/-- **Every line is handed over, in order and exactly once**, and a line that is discarded takes
    no other with it, exactly when none of the lines is misread. -/
theorem lines_framed_iff (s : Stdin) :
    Framed s ↔ ∀ n, ¬ Misread (askedBehind n s.stream).limit (lineStart n s.stream) := by
  have hwalk : (∀ n, walk roundOf n .command s.stream = walk lineOf n .command s.stream) ↔
      ∀ n, ¬ Misread (askedBehind n s.stream).limit (lineStart n s.stream) :=
    (walk_eq_iff roundOf lineOf .command s.stream).trans
      (forall_congr' fun n => roundOf_eq_lineOf_iff _ _)
  rw [← hwalk]
  constructor
  · intro h n
    obtain ⟨hlines, hrest⟩ := readLines_run n .command s
    exact Prod.ext (hlines.symm.trans (h.lines n).1) (hrest.symm.trans (h.lines n).2)
  · intro h
    constructor
    case lines =>
      intro n
      obtain ⟨hlines, hrest⟩ := readLines_run n .command s
      rw [h n] at hlines hrest
      exact ⟨hlines, hrest⟩
    case calls =>
      intro k
      obtain ⟨n, hinputs, hasked, hrest⟩ := comes_readInputs k s
      rw [h n] at hinputs hasked hrest
      exact ⟨n, hinputs.symm, hrest.symm, hasked⟩

/-- A line with a NUL takes the line behind it with it, and a last line without a newline is
    discarded as too long; at the prompts of `/login` as well. -/
theorem nul_swallows_next_line :
    (((readInputs 2).run (ofStream (utf8 "a" ++ 0 :: utf8 "b\n/quit\n"))).1 = [.tooLong, .eof] ∧
      handed 2 (utf8 "a" ++ 0 :: utf8 "b\n/quit\n") = [.tooLong, .line (utf8 "/quit")] ∧
      ¬ Framed (ofStream (utf8 "a" ++ 0 :: utf8 "b\n/quit\n"))) ∧
    ¬ Framed (ofStream (utf8 "/quit")) ∧
    (((readInputs 2).run
        (ofStream (utf8 "/login\nx" ++ 0 :: utf8 "y\nbob\npw\nhello\n"))).1 =
          [.login (some (utf8 "pw", utf8 "hello")), .eof] ∧
      handed 5 (utf8 "/login\nx" ++ 0 :: utf8 "y\nbob\npw\nhello\n") =
        [.login (some (utf8 "bob", utf8 "pw")), .line (utf8 "hello")] ∧
      ¬ Framed (ofStream (utf8 "/login\nx" ++ 0 :: utf8 "y\nbob\npw\nhello\n"))) ∧
    ¬ Framed (ofStream (utf8 "/login\nbob\npw")) := by
  refine ⟨⟨?_, ?_, fun h => absurd (h.lines 2).1 ?_⟩, fun h => absurd (h.lines 1).1 ?_,
    ⟨?_, ?_, fun h => absurd (h.lines 5).1 ?_⟩, fun h => absurd (h.lines 3).1 ?_⟩
  all_goals decide +kernel

end TCPClient
