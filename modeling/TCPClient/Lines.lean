import TCPClient.Stdin

namespace TCPClient

open Octets Reader

/-!
# Where a line ends

Both readers of standard input find the end of a line by looking for a newline in what `fgets`
stored, and drain up to the next newline when there is none.  What they find is compared here
with the lines of the stream: `readLine_run` says what one round of `fgets` makes of the bytes,
and `promptLine_contract_iff` which lines the prompts of `commands_login` take.
-/

/-! ### What `fgets` stores -/

theorem fgetsLoop_cons {n : Nat} {s : Stdin} {b : UInt8} {bs : Bytes} (hs : s.stream = b :: bs)
    (hb : b ≠ 10) : ∃ s', s'.stream = bs ∧
      ((fgetsLoop (n + 1)).run s).1 = b :: ((fgetsLoop n).run s').1 := by
  obtain ⟨s', hnext, hs'⟩ := next_cons hs
  refine ⟨s', hs', ?_⟩
  rw [fgetsLoop, StateT.run_bind, hnext]
  show ((if b = 10 then pure [10] else return b :: (← fgetsLoop n) :
    StateM Stdin Bytes).run s').1 = _
  rw [if_neg hb]
  rfl

/-- The line in front, with its newline if it has one, as far as it fits. -/
theorem fgetsLoop_fst (n : Nat) (s : Stdin) :
    ((fgetsLoop n).run s).1 =
      (s.stream.takeWhile (· ≠ 10) ++ (s.stream.dropWhile (· ≠ 10)).take 1).take n := by
  induction n generalizing s with
  | zero => rfl
  | succ n ih =>
    cases hs : s.stream with
    | nil =>
      obtain ⟨s', hnext, -⟩ := next_nil hs
      rw [fgetsLoop, StateT.run_bind, hnext]
      rfl
    | cons b bs =>
      by_cases hb : b = 10
      · subst hb
        obtain ⟨s', hnext, -⟩ := next_cons hs
        rw [fgetsLoop, StateT.run_bind, hnext, List.takeWhile_cons_of_neg (by simp),
          List.dropWhile_cons_of_neg (by simp)]
        show [10] = 10 :: List.take n []
        rw [List.take_nil]
      · obtain ⟨s', rfl, hfst⟩ := fgetsLoop_cons (n := n) hs hb
        rw [hfst, ih, List.takeWhile_cons_of_pos (by simpa using hb),
          List.dropWhile_cons_of_pos (by simpa using hb)]
        rfl

variable {size : Nat} {s : Stdin} {line rest : Bytes}

/-- A search for a byte that is not there passes over every byte. -/
theorem passes_of_not_mem {b : UInt8} (h : b ∉ line) : ∀ c ∈ line, decide (c ≠ b) = true := by
  rintro c hc
  rw [decide_eq_true_eq]
  rintro rfl
  exact h hc

theorem takeWhile_line (h : 10 ∉ line) :
    (line ++ 10 :: rest).takeWhile (· ≠ 10) = line ∧
      (line ++ 10 :: rest).dropWhile (· ≠ 10) = 10 :: rest := by
  have hall := passes_of_not_mem h
  constructor
  · rw [List.takeWhile_append_of_pos hall, List.takeWhile_cons_of_neg (by simp), List.append_nil]
  · rw [List.dropWhile_append_of_pos hall, List.dropWhile_cons_of_neg (by simp)]

theorem takeWhile_last (h : 10 ∉ line) :
    line.takeWhile (· ≠ 10) = line ∧ line.dropWhile (· ≠ 10) = [] :=
  ⟨List.takeWhile_eq_self_iff.mpr (passes_of_not_mem h),
    List.dropWhile_eq_nil_iff.mpr (passes_of_not_mem h)⟩

/-- Up to the first NUL, a line without NUL is all there is. -/
theorem takeWhile_nul (h : 0 ∉ line) : (line ++ [10]).takeWhile (· ≠ 0) = line ++ [10] := by
  apply List.takeWhile_eq_self_iff.mpr
  apply passes_of_not_mem
  rw [List.mem_append, not_or]
  exact ⟨h, by decide⟩

/-- `fgets` on a line that fits with its newline. -/
theorem fgets_fits (h : 10 ∉ line) (hs : s.stream = line ++ 10 :: rest)
    (hfits : line.length < size - 1) :
    ∃ s', (fgets size).run s = (some (line ++ [10]), s') ∧ s'.stream = rest := by
  have hfst := fgetsLoop_fst (size - 1) s
  have hsplit := fgetsLoop_stream (size - 1) s
  rw [hs, (takeWhile_line h).1, (takeWhile_line h).2, List.take_of_length_le (by simp; omega)]
    at hfst
  rw [hfst, hs] at hsplit
  refine ⟨((fgetsLoop (size - 1)).run s).2, Prod.ext ?_ rfl, ?_⟩
  · show (if ((fgetsLoop (size - 1)).run s).1 = [] then none else some _) = _
    rw [if_neg (by rw [hfst]; simp)]
    exact congrArg some hfst
  · have hrest : (line ++ [10]) ++ ((fgetsLoop (size - 1)).run s).2.stream =
        (line ++ [10]) ++ rest := by
      rw [List.append_assoc line [10] rest]
      exact hsplit
    exact List.append_cancel_left hrest

/-- `fgets` on a line that does not fit: only its front is stored. -/
theorem fgets_long (h : 10 ∉ line) (hs : s.stream = line ++ 10 :: rest) (hsize : 2 ≤ size)
    (hlong : size - 1 ≤ line.length) :
    ∃ s', (fgets size).run s = (some (line.take (size - 1)), s') ∧
      s'.stream = line.drop (size - 1) ++ 10 :: rest := by
  have hfst := fgetsLoop_fst (size - 1) s
  have hsplit := fgetsLoop_stream (size - 1) s
  rw [hs, (takeWhile_line h).1, (takeWhile_line h).2, List.take_append_of_le_length hlong] at hfst
  rw [hfst, hs] at hsplit
  refine ⟨((fgetsLoop (size - 1)).run s).2, Prod.ext ?_ rfl, ?_⟩
  · show (if ((fgetsLoop (size - 1)).run s).1 = [] then none else some _) = _
    rw [if_neg ?_]
    · exact congrArg some hfst
    · intro hnil
      have hlen := congrArg List.length (hfst.symm.trans hnil)
      rw [List.length_take, List.length_nil] at hlen
      omega
  · rw [← List.take_append_drop (size - 1) (line ++ 10 :: rest),
      List.take_append_of_le_length hlong, List.drop_append_of_le_length hlong] at hsplit
    exact List.append_cancel_left hsplit

/-- The front of a last line, of which `fgets` stores what fits. -/
theorem fgets_last (hne : line ≠ []) (h : 10 ∉ line) {s : Stdin} (hs : s.stream = line)
    (hsize : 2 ≤ size) :
    ∃ s', (fgets size).run s = (some (line.take (size - 1)), s') ∧
      s'.stream = line.drop (size - 1) := by
  have hfst := fgetsLoop_fst (size - 1) s
  have hsplit := fgetsLoop_stream (size - 1) s
  rw [hs, (takeWhile_last h).1, (takeWhile_last h).2, List.take_nil, List.append_nil] at hfst
  rw [hfst, hs] at hsplit
  refine ⟨((fgetsLoop (size - 1)).run s).2, Prod.ext ?_ rfl, ?_⟩
  · show (if ((fgetsLoop (size - 1)).run s).1 = [] then none else some _) = _
    rw [if_neg ?_]
    · exact congrArg some hfst
    · intro hnil
      rcases List.take_eq_nil_iff.mp (hfst.symm.trans hnil) with hzero | hnil
      · omega
      · exact hne hnil
  · rw [← List.take_append_drop (size - 1) line, List.take_append_drop] at hsplit
    exact List.append_cancel_left (hsplit.trans (List.take_append_drop (size - 1) line).symm)

/-- At the end of the stream `fgets` finds nothing. -/
theorem fgets_nil (size : Nat) {s : Stdin} (hs : s.stream = []) :
    ∃ s', (fgets size).run s = (none, s') ∧ s'.stream = [] := by
  have hfst := fgetsLoop_fst (size - 1) s
  have hsplit := fgetsLoop_stream (size - 1) s
  rw [hs] at hfst hsplit
  refine ⟨((fgetsLoop (size - 1)).run s).2, Prod.ext ?_ rfl, (List.append_eq_nil_iff.mp hsplit).2⟩
  show (if ((fgetsLoop (size - 1)).run s).1 = [] then none else some _) = none
  rw [if_pos (hfst.trans List.take_nil)]

/-- Draining ends behind the newline of the line it starts in. -/
theorem drainStdin_line {s : Stdin} (h : 10 ∉ line) (hs : s.stream = line ++ 10 :: rest) :
    (drainStdin.run s).2.stream = rest := by
  rw [drainStdin_stream, hs, (takeWhile_line h).2, List.tail_cons]

theorem hasNewline_iff (h : 10 ∉ line) : HasNewline (line ++ [10]) ↔ 0 ∉ line := by
  unfold HasNewline
  constructor
  · intro hnewline hnul
    -- the search ends at the NUL, in front of the newline
    rw [List.takeWhile_append, if_neg ?_] at hnewline
    · exact h ((List.takeWhile_prefix _).subset hnewline)
    · intro hlen
      have hall := List.takeWhile_eq_self_iff.mp ((List.takeWhile_prefix _).eq_of_length hlen)
      exact absurd (hall 0 hnul) (by simp)
  · intro hnul
    rw [takeWhile_nul hnul]
    simp

/-- A line without its trailing carriage returns. -/
def trimmed (line : Bytes) : Bytes := line.rdropWhile fun b => b = 10 ∨ b = 13

theorem utilsTrimNewline_line (h : 0 ∉ line) : utilsTrimNewline (line ++ [10]) = trimmed line := by
  rw [utilsTrimNewline, takeWhile_nul h]
  exact List.rdropWhile_concat_pos _ _ _ (by simp)

/-! ### One round of `fgets` -/

/-- What is made of a line: there is none, it is discarded, or its text is taken. -/
inductive Taken where
  | eof
  | discarded
  | text (line : Bytes)
  deriving DecidableEq, Repr

/-- A round of the loop of `prompt_line`, and the reading of `app_handle_stdin`: `fgets`, the
    search for the newline, and `drain_stdin` if there is none. -/
def readLine (size : Nat) : StateM Stdin Taken := do
  match ← fgets size with
  | none => pure .eof
  | some line =>
    if HasNewline line then pure (.text (utilsTrimNewline line))
    else do
      drainStdin
      pure .discarded

/-- The line in front of a stream. -/
def frontLine (stream : Bytes) : Bytes := stream.takeWhile (· ≠ 10)

/-- What is behind the line in front and its newline. -/
def behindLine (stream : Bytes) : Bytes := (stream.dropWhile (· ≠ 10)).tail

/-- What a round does, in terms of the bytes: it takes a line of at most `limit` bytes that has
    its newline.  Where the newline is not seen because of a NUL, it drains the line behind. -/
def roundOf (limit : Nat) (stream : Bytes) : Taken × Bytes :=
  let line := frontLine stream
  if stream = [] then (.eof, [])
  else if 10 ∉ stream ∨ limit < line.length then (.discarded, behindLine stream)
  else if 0 ∈ line then (.discarded, behindLine (behindLine stream))
  else (.text (trimmed line), behindLine stream)

theorem frontLine_line (h : 10 ∉ line) : frontLine (line ++ 10 :: rest) = line :=
  (takeWhile_line h).1

theorem behindLine_line (h : 10 ∉ line) : behindLine (line ++ 10 :: rest) = rest := by
  rw [behindLine, (takeWhile_line h).2, List.tail_cons]

theorem frontLine_last (h : 10 ∉ line) : frontLine line = line := (takeWhile_last h).1

theorem behindLine_last (h : 10 ∉ line) : behindLine line = [] := by
  rw [behindLine, (takeWhile_last h).2, List.tail_nil]

theorem roundOf_line (h : 10 ∉ line) {limit : Nat} :
    roundOf limit (line ++ 10 :: rest) =
      if limit < line.length then (.discarded, rest)
      else if 0 ∈ line then (.discarded, behindLine rest)
      else (.text (trimmed line), rest) := by
  rw [roundOf, frontLine_line h, behindLine_line h, if_neg (by simp)]
  simp

theorem roundOf_last (hne : line ≠ []) (h : 10 ∉ line) {limit : Nat} :
    roundOf limit line = (.discarded, []) := by
  rw [roundOf, if_neg hne, behindLine_last h]
  exact if_pos (Or.inl h)

theorem readLine_of_line {s s' : Stdin} (h : (fgets size).run s = (some line, s')) :
    (readLine size).run s =
      if HasNewline line then (.text (utilsTrimNewline line), s')
      else (.discarded, (drainStdin.run s').2) := by
  rw [readLine, StateT.run_bind, h]
  show (if HasNewline line then pure (.text (utilsTrimNewline line))
    else (do drainStdin; pure .discarded) : StateM Stdin Taken).run s' = _
  split_ifs <;> rfl

/-- **One round**, by the bytes alone. -/
theorem readLine_run (hsize : 2 ≤ size) (s : Stdin) :
    ((readLine size).run s).1 = (roundOf (size - 2) s.stream).1 ∧
      ((readLine size).run s).2.stream = (roundOf (size - 2) s.stream).2 := by
  by_cases hmem : 10 ∈ s.stream
  · obtain ⟨line, rest, hs, h⟩ := List.eq_append_cons_of_mem hmem
    rw [hs, roundOf_line h]
    by_cases hlong : size - 2 < line.length
    · -- only the front is stored, and the rest is drained
      obtain ⟨s', hline, hs'⟩ := fgets_long h hs hsize (by omega)
      have hnone : ¬ HasNewline (line.take (size - 1)) := fun hn =>
        h (List.mem_of_mem_take ((List.takeWhile_prefix _).subset hn))
      rw [readLine_of_line hline, if_neg hnone, if_pos hlong]
      exact ⟨rfl, drainStdin_line (fun hb => h (List.mem_of_mem_drop hb)) hs'⟩
    · obtain ⟨s', hline, rfl⟩ := fgets_fits h hs (show line.length < size - 1 by omega)
      rw [readLine_of_line hline, if_neg hlong]
      by_cases hnul : 0 ∈ line
      · -- the NUL hides the newline, so the next line is drained
        rw [if_neg fun hn => (hasNewline_iff h).mp hn hnul, if_pos hnul]
        exact ⟨rfl, drainStdin_stream s'⟩
      · rw [if_pos ((hasNewline_iff h).mpr hnul), if_neg hnul, utilsTrimNewline_line hnul]
        exact ⟨rfl, rfl⟩
  · by_cases hnil : s.stream = []
    · obtain ⟨s', hend, hs'⟩ := fgets_nil size hnil
      rw [readLine, StateT.run_bind, hend, hnil]
      exact ⟨rfl, hs'⟩
    · -- a last line without its newline is drained as well
      obtain ⟨s', hline, hs'⟩ := fgets_last hnil hmem rfl hsize
      have hnone : ¬ HasNewline (s.stream.take (size - 1)) := fun hn =>
        hmem (List.mem_of_mem_take ((List.takeWhile_prefix _).subset hn))
      rw [readLine_of_line hline, if_neg hnone, roundOf_last hnil hmem]
      refine ⟨rfl, ?_⟩
      show (drainStdin.run s').2.stream = []
      rw [drainStdin_stream, hs']
      exact behindLine_last fun hb => hmem (List.mem_of_mem_drop hb)

/-- A round takes at least one byte, if there is one. -/
theorem roundOf_shorter {stream : Bytes} (hne : stream ≠ []) (limit : Nat) :
    (roundOf limit stream).2.length < stream.length := by
  have hbehind (stream : Bytes) : (behindLine stream).length ≤ stream.length := by
    rw [behindLine, List.length_tail]
    exact (Nat.sub_le _ _).trans (List.length_dropWhile_le _ _)
  by_cases hmem : 10 ∈ stream
  · obtain ⟨line, rest, rfl, h⟩ := List.eq_append_cons_of_mem hmem
    have hrest := hbehind rest
    rw [roundOf_line h, List.length_append, List.length_cons]
    split_ifs <;> dsimp only <;> omega
  · rw [roundOf_last hne hmem]
    exact List.length_pos_of_ne_nil hne

/-- A text that is taken fits its buffer. -/
theorem length_le_of_roundOf {limit : Nat} {stream text : Bytes}
    (h : (roundOf limit stream).1 = .text text) : text.length ≤ limit := by
  rw [roundOf] at h
  split_ifs at h with _ hbad
  obtain rfl : _ = text := Taken.text.inj h
  exact (List.rdropWhile_prefix _ _).length_le.trans (not_lt.mp (not_or.mp hbad).2)

/-! ### The prompts of `commands_login` -/

/-- What `prompt_line` does behind a round. -/
def promptRest (size n : Nat) : Taken → StateM Stdin (Option Bytes)
  | .eof => pure none
  | .discarded => promptLoop size n
  | .text line => pure (some line)

theorem promptLoop_succ (size n : Nat) :
    promptLoop size (n + 1) = readLine size >>= promptRest size n := by
  rw [promptLoop, readLine, bind_assoc]
  congr
  funext line
  cases line with
  | none => rfl
  | some line =>
    dsimp only
    split_ifs <;> rfl

/-- A line a user can type at a prompt. -/
abbrev PlainLine := { line : Bytes // 0 ∉ line ∧ 10 ∉ line ∧ 13 ∉ line }

/-- The stream of some lines, each with its newline. -/
def typed (lines : List PlainLine) : Bytes := lines.flatMap fun line => line.1 ++ [10]

/-- The first line of at most `limit` bytes, and the lines behind it. -/
def firstFitting (limit : Nat) : List PlainLine → Option (PlainLine × List PlainLine)
  | [] => none
  | line :: lines =>
    if line.1.length ≤ limit then some (line, lines) else firstFitting limit lines

/-- A prompt returns this line and leaves what is behind it, or finds the end of the input. -/
def Prompted (found : Option (PlainLine × List PlainLine)) (res : Option Bytes × Stdin) : Prop :=
  match found with
  | none => res.1 = none ∧ res.2.stream = []
  | some (line, rest) => res.1 = some line.1 ∧ res.2.stream = typed rest

theorem firstFitting_length_le {limit : Nat} {lines rest : List PlainLine} {line : PlainLine}
    (h : firstFitting limit lines = some (line, rest)) : line.1.length ≤ limit := by
  induction lines with
  | nil => exact absurd h (by simp [firstFitting])
  | cons l lines ih =>
    rw [firstFitting] at h
    split_ifs at h with hfits
    · obtain ⟨rfl, -⟩ := Prod.mk.inj (Option.some.inj h)
      exact hfits
    · exact ih h

/-- With a smaller limit the same line is found, if it still fits. -/
theorem firstFitting_of_le {limit limit' : Nat} (hle : limit' ≤ limit) {lines : List PlainLine}
    (h : ∀ line rest, firstFitting limit lines = some (line, rest) → line.1.length ≤ limit') :
    firstFitting limit' lines = firstFitting limit lines := by
  induction lines with
  | nil => rfl
  | cons l lines ih =>
    rw [firstFitting, firstFitting]
    by_cases hfits : l.1.length ≤ limit
    · have hfits' := h l lines (by rw [firstFitting, if_pos hfits])
      rw [if_pos hfits, if_pos hfits']
    · rw [if_neg hfits, if_neg (by omega)]
      exact ih fun line rest hfound => h line rest (by rw [firstFitting, if_neg hfits, hfound])

theorem trimmed_plain (line : PlainLine) : trimmed line.1 = line.1 := by
  apply List.rdropWhile_eq_self_iff.mpr
  intro hne hlast
  have hmem := List.getLast_mem hne
  rcases of_decide_eq_true hlast with hlast | hlast <;> rw [hlast] at hmem
  · exact line.2.2.1 hmem
  · exact line.2.2.2 hmem

/-- **What a prompt does**: it takes the first line that leaves room for its newline and its
    NUL, and drops every line in front of it as a whole. -/
theorem promptLoop_prompted (hsize : 2 ≤ size) {fuel : Nat} {lines : List PlainLine} {s : Stdin}
    (hs : s.stream = typed lines) (hfuel : s.stream.length < fuel) :
    Prompted (firstFitting (size - 2) lines) ((promptLoop size fuel).run s) := by
  induction lines generalizing fuel s with
  | nil =>
    obtain ⟨fuel, rfl⟩ := Nat.exists_eq_succ_of_ne_zero (Nat.ne_zero_of_lt hfuel)
    obtain ⟨hline, hrest⟩ := readLine_run hsize s
    rw [show s.stream = [] from hs] at hline hrest
    rw [promptLoop_succ, StateT.run_bind]
    generalize (readLine size).run s = res at hline hrest ⊢
    obtain ⟨line, s'⟩ := res
    obtain rfl : line = .eof := hline
    exact ⟨rfl, hrest⟩
  | cons line lines ih =>
    obtain ⟨fuel, rfl⟩ := Nat.exists_eq_succ_of_ne_zero (Nat.ne_zero_of_lt hfuel)
    obtain ⟨hnul, hnewline, -⟩ := line.2
    replace hs : s.stream = line.1 ++ 10 :: typed lines := by
      rw [hs]
      simp [typed]
    obtain ⟨hline, hrest⟩ := readLine_run hsize s
    rw [hs, roundOf_line hnewline, if_neg hnul, trimmed_plain] at hline hrest
    rw [promptLoop_succ, StateT.run_bind, firstFitting]
    generalize (readLine size).run s = res at hline hrest ⊢
    obtain ⟨taken, s'⟩ := res
    by_cases hfits : line.1.length ≤ size - 2
    · rw [if_neg (by omega)] at hline hrest
      obtain rfl : taken = .text line.1 := hline
      rw [if_pos hfits]
      exact ⟨rfl, hrest⟩
    · rw [if_pos (by omega)] at hline hrest
      obtain rfl : taken = .discarded := hline
      rw [if_neg hfits]
      -- the rest of the long line is drained, so the next round starts at the next line
      refine ih (show s'.stream = typed lines from hrest) ?_
      rw [hs, List.length_append, List.length_cons] at hfuel
      rw [show s'.stream = typed lines from hrest]
      omega

/-- **The announced limit** of a prompt holds as long as the first line within it is shorter by
    one: `fgets` needs room for the newline as well. -/
theorem promptLine_contract_iff (hsize : 2 ≤ size) {lines : List PlainLine} {s : Stdin}
    (hs : s.stream = typed lines) :
    Prompted (firstFitting (size - 1) lines) ((promptLine size).run s) ↔
      ∀ line rest, firstFitting (size - 1) lines = some (line, rest) →
        line.1.length ≤ size - 2 := by
  have hprompted : Prompted (firstFitting (size - 2) lines) ((promptLine size).run s) :=
    promptLoop_prompted hsize hs (Nat.lt_succ_self _)
  constructor
  · intro h line rest hfound
    rw [hfound] at h
    -- the prompt never returns a line of more than `size - 2` bytes
    cases hother : firstFitting (size - 2) lines with
    | none =>
      rw [hother] at hprompted
      exact absurd (hprompted.1.symm.trans h.1) (by simp)
    | some found =>
      rw [hother] at hprompted
      have hsame : found.1.1 = line.1 := Option.some.inj (hprompted.1.symm.trans h.1)
      rw [← hsame]
      exact firstFitting_length_le hother
  · intro h
    rwa [firstFitting_of_le (by omega) h] at hprompted

/-- A line of letters. -/
def letters (n : Nat) : PlainLine := ⟨List.replicate n 97, by simp [List.mem_replicate]⟩

/-- Forty letters and then three, at the prompt for the user name. -/
theorem promptLine_contract_forty :
    Prompted (firstFitting (maxUsernameLen - 1) [letters 40, letters 3])
      ((promptLine maxUsernameLen).run (ofStream (typed [letters 40, letters 3]))) :=
  (promptLine_contract_iff (by decide) (stream_ofStream _)).mpr fun line rest hfound => by
    obtain ⟨rfl, -⟩ := Prod.mk.inj (Option.some.inj hfound)
    decide

/-- A user name of the announced 31 bytes is skipped, and the next line taken instead. -/
theorem promptLine_skips_limit :
    ¬ Prompted (firstFitting (maxUsernameLen - 1) [letters 31, letters 3])
      ((promptLine maxUsernameLen).run (ofStream (typed [letters 31, letters 3]))) := by
  rintro ⟨htaken, -⟩
  have hskipped : Prompted _ ((promptLine maxUsernameLen).run
      (ofStream (typed [letters 31, letters 3]))) :=
    promptLoop_prompted (by decide) (stream_ofStream _) (Nat.lt_succ_self _)
  have hshort := hskipped.1.symm.trans htaken
  exact absurd hshort (by decide)

end TCPClient
