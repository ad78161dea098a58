import TCPClient.Utils

namespace TCPClient

open Octets

/-!
# `commands.c` — argument parsing

The argument parsers of the `/`-commands.  A line is the contents of a C string; a parser gets
what follows the command word.  Buffers are given by their sizes, the NUL included.
-/

/-- A blank that separates arguments. -/
def IsBlank (b : UInt8) : Prop := b = 32 ∨ b = 9

instance : DecidablePred IsBlank := fun b => inferInstanceAs (Decidable (b = 32 ∨ b = 9))

/-- `while (*p == ' ' || *p == '\t') p++`. -/
def skipBlanks (p : Bytes) : Bytes := p.dropWhile fun b => decide (IsBlank b)

/-- `commands_parse_tid_arg`: blanks and then digits to the end, at most `UINT32_MAX`. -/
def commandsParseTidArg (arg : Bytes) : Option Nat :=
  let p := skipBlanks arg
  if p = [] then none
  else
    match utilsParseU64Range p with
    | none => none
    | some tid => if tid > 2 ^ 32 - 1 then none else some tid

/-- What `commands_parse_priv`, `commands_parse_gmsg` and `commands_parse_sendfile` share: a
    name of fewer than `nameSz` bytes up to a blank, and the non-empty text behind the blanks
    that follow. -/
def parseNameText (arg : Bytes) (nameSz : Nat) : Option (Bytes × Bytes) :=
  let p := skipBlanks arg
  let name := p.takeWhile fun b => ¬ decide (IsBlank b)
  let text := skipBlanks (p.drop name.length)
  if p = [] then none
  else if name.length = 0 ∨ name.length ≥ nameSz then none
  else if text = [] then none
  else some (name, text)

/-- The name fits its buffer. -/
theorem parseNameText_length {arg name text : Bytes} {nameSz : Nat}
    (h : parseNameText arg nameSz = some (name, text)) : name.length < nameSz := by
  simp only [parseNameText] at h
  split_ifs at h with hnil hlen htext
  have hname := congrArg Prod.fst (Option.some.inj h)
  dsimp only at hname
  rw [← hname]
  omega

/-- `commands_parse_sendfile`: the file name has to fit its buffer as well. -/
def commandsParseSendfile (line : Bytes) (targetSz filenameSz : Nat) : Option (Bytes × Bytes) :=
  match parseNameText (line.drop 9) targetSz with
  | none => none
  | some (target, filename) =>
    if filename.length ≥ filenameSz then none else some (target, filename)

/-- Parsed arguments fit the buffers they were parsed into. -/
theorem commandsParseSendfile_length {line target filename : Bytes} {targetSz filenameSz : Nat}
    (h : commandsParseSendfile line targetSz filenameSz = some (target, filename)) :
    target.length < targetSz ∧ filename.length < filenameSz := by
  unfold commandsParseSendfile at h
  cases hname : parseNameText (line.drop 9) targetSz with
  | none => simp [hname] at h
  | some args =>
    obtain ⟨name, text⟩ := args
    rw [hname] at h
    dsimp only at h
    split_ifs at h with hlong
    obtain ⟨rfl, rfl⟩ : name = target ∧ text = filename := by simpa using h
    exact ⟨parseNameText_length hname, by omega⟩

/-- `commands_parse_priv`. -/
def commandsParsePriv (line : Bytes) (targetSz : Nat) : Option (Bytes × Bytes) :=
  parseNameText (line.drop 5) targetSz

/-- `commands_parse_gmsg`. -/
def commandsParseGmsg (line : Bytes) (groupSz : Nat) : Option (Bytes × Bytes) :=
  parseNameText (line.drop 5) groupSz

/-! ### What the parsers find -/

/-- An argument is blanks and then a text that does not start with one. -/
structure OneText (arg text : Bytes) : Prop where
  split : ∃ blanks, arg = blanks ++ text ∧ ∀ b ∈ blanks, IsBlank b
  text : ∃ b rest, text = b :: rest ∧ ¬ IsBlank b

/-- An argument is a name without blanks, blanks, and a text that does not start with one, all
    behind blanks. -/
structure NameText (arg name text : Bytes) : Prop where
  split : ∃ blanks gap, arg = blanks ++ (name ++ (gap ++ text)) ∧ (∀ b ∈ blanks, IsBlank b) ∧
    (∀ b ∈ gap, IsBlank b) ∧ gap ≠ []
  name : name ≠ [] ∧ ∀ b ∈ name, ¬ IsBlank b
  text : ∃ b rest, text = b :: rest ∧ ¬ IsBlank b

/-- An argument is a decimal number of 32 bits behind blanks. -/
def TidText (arg : Bytes) (tid : Nat) : Prop :=
  ∃ digits, OneText arg digits ∧ (∀ b ∈ digits, IsDigit b) ∧ decimalValue 0 digits = tid ∧
    tid < 2 ^ 32

/-- Only blanks are skipped. -/
theorem skipBlanks_append (arg : Bytes) :
    ∃ blanks, arg = blanks ++ skipBlanks arg ∧ ∀ b ∈ blanks, IsBlank b := by
  refine ⟨arg.takeWhile fun b => decide (IsBlank b), List.takeWhile_append_dropWhile.symm, ?_⟩
  intro b hb
  simpa using List.mem_takeWhile_imp hb

/-- Blanks in front of something that is none are what `skipBlanks` skips. -/
theorem skipBlanks_blanks_append {blanks tail : Bytes} {b : UInt8} (h : ∀ c ∈ blanks, IsBlank c)
    (hb : ¬ IsBlank b) : skipBlanks (blanks ++ b :: tail) = b :: tail := by
  unfold skipBlanks
  rw [List.dropWhile_append_of_pos (fun c hc => decide_eq_true (h c hc)),
    List.dropWhile_cons_of_neg (by simpa using hb)]

/-- What is left starts with something else. -/
theorem skipBlanks_cons {arg : Bytes} (h : skipBlanks arg ≠ []) :
    ∃ b rest, skipBlanks arg = b :: rest ∧ ¬ IsBlank b := by
  obtain ⟨b, rest, hb⟩ := List.exists_cons_of_ne_nil h
  refine ⟨b, rest, hb, fun hblank => ?_⟩
  have hhead := List.head_dropWhile_not (fun b => decide (IsBlank b)) h
  simp only [skipBlanks] at hb
  simp [hb, hblank] at hhead

/-- So it is a text behind blanks. -/
theorem oneText_skipBlanks {arg : Bytes} (h : skipBlanks arg ≠ []) :
    OneText arg (skipBlanks arg) :=
  ⟨skipBlanks_append arg, skipBlanks_cons h⟩

/-- The text is part of the argument. -/
theorem OneText.length_le {arg text : Bytes} (h : OneText arg text) : text.length ≤ arg.length := by
  obtain ⟨blanks, rfl, -⟩ := h.split
  simp

/-- What the parser returns is a name and a text. -/
theorem nameText_of_parse {arg name text : Bytes} {nameSz : Nat}
    (h : parseNameText arg nameSz = some (name, text)) : NameText arg name text := by
  simp only [parseNameText, drop_length_takeWhile] at h
  split_ifs at h with hnil hlen htext
  obtain ⟨rfl, rfl⟩ := Prod.mk.inj (Option.some.inj h)
  obtain ⟨blanks, harg, hblanks⟩ := skipBlanks_append arg
  generalize skipBlanks arg = p at harg hlen htext ⊢
  have hsplit := List.takeWhile_append_dropWhile (p := fun b => ¬ decide (IsBlank b)) (l := p)
  have hhead := List.head_dropWhile_not (fun b => ¬ decide (IsBlank b)) (l := p)
  have hname : ∀ b ∈ p.takeWhile (fun b => ¬ decide (IsBlank b)), ¬ IsBlank b := by
    intro b hb
    simpa using List.mem_takeWhile_imp hb
  generalize p.takeWhile (fun b => ¬ decide (IsBlank b)) = name at hsplit hlen hname ⊢
  generalize p.dropWhile (fun b => ¬ decide (IsBlank b)) = tail at hsplit htext hhead ⊢
  obtain ⟨gap, hgap, hgaps⟩ := skipBlanks_append tail
  obtain ⟨b, rest, hb, hblank⟩ := skipBlanks_cons htext
  refine ⟨⟨blanks, gap, ?_, hblanks, hgaps, ?_⟩, ⟨?_, hname⟩, b, rest, hb, hblank⟩
  · rw [← hgap, hsplit]
    exact harg
  · -- the name goes up to a blank
    rintro rfl
    have htail : tail = b :: rest := by rw [hgap, List.nil_append, hb]
    subst htail
    simp [hblank] at hhead
  · rintro rfl
    exact hlen (Or.inl rfl)

/-- Both are part of the argument, with a blank between them. -/
theorem NameText.length_lt {arg name text : Bytes} (h : NameText arg name text) :
    name.length + text.length < arg.length := by
  obtain ⟨blanks, gap, rfl, -, -, hgap⟩ := h.split
  have hpos := List.length_pos_of_ne_nil hgap
  simp only [List.length_append]
  omega

/-- The arguments of `/sendfile` are a name and a text. -/
theorem nameText_of_parseSendfile {line target filename : Bytes} {targetSz filenameSz : Nat}
    (h : commandsParseSendfile line targetSz filenameSz = some (target, filename)) :
    NameText (line.drop 9) target filename := by
  unfold commandsParseSendfile at h
  cases hname : parseNameText (line.drop 9) targetSz with
  | none => simp [hname] at h
  | some args =>
    rw [hname] at h
    dsimp only at h
    split_ifs at h
    obtain rfl : args = (target, filename) := Option.some.inj h
    exact nameText_of_parse hname

/-- An id is a number of 32 bits. -/
theorem commandsParseTidArg_eq_filter (arg : Bytes) :
    commandsParseTidArg arg =
      (utilsParseU64Range (skipBlanks arg)).filter fun tid => tid ≤ 2 ^ 32 - 1 := by
  unfold commandsParseTidArg
  dsimp only
  by_cases hnil : skipBlanks arg = []
  · rw [if_pos hnil, hnil]
    rfl
  · rw [if_neg hnil]
    exact narrowed_eq_filter (fun h => by rw [h]) (fun tid h => by rw [h])

/-- A digit is no blank. -/
theorem not_isBlank_of_isDigit {b : UInt8} (h : IsDigit b) : ¬ IsBlank b := by
  rintro (rfl | rfl)
  · exact absurd h (by decide)
  · exact absurd h (by decide)

/-- Digits behind blanks are what is left of them. -/
theorem skipBlanks_digits {blanks digits : Bytes} (hblanks : ∀ b ∈ blanks, IsBlank b)
    (hne : digits ≠ []) (hdigit : ∀ b ∈ digits, IsDigit b) :
    skipBlanks (blanks ++ digits) = digits := by
  obtain ⟨b, tail, rfl⟩ := List.exists_cons_of_ne_nil hne
  exact skipBlanks_blanks_append hblanks (not_isBlank_of_isDigit (hdigit b List.mem_cons_self))

/-- **The ids**: blanks, then digits, and nothing behind. -/
theorem commandsParseTidArg_eq_some {arg : Bytes} {tid : Nat} :
    commandsParseTidArg arg = some tid ↔
      ∃ blanks digits, arg = blanks ++ digits ∧ (∀ b ∈ blanks, IsBlank b) ∧
        TidDigits digits tid := by
  rw [commandsParseTidArg_eq_filter, parse_filter_eq_some]
  constructor
  · intro h
    obtain ⟨blanks, harg, hblanks⟩ := skipBlanks_append arg
    exact ⟨blanks, skipBlanks arg, harg, hblanks, h⟩
  · rintro ⟨blanks, digits, rfl, hblanks, h⟩
    rwa [skipBlanks_digits hblanks h.ne_nil h.digit]

/-- A number behind blanks is parsed. -/
theorem TidText.parse_eq {arg : Bytes} {tid : Nat} (h : TidText arg tid) :
    commandsParseTidArg arg = some tid := by
  obtain ⟨digits, harg, hdigit, hvalue, hfits⟩ := h
  obtain ⟨blanks, rfl, hblanks⟩ := harg.split
  obtain ⟨b, rest, rfl, -⟩ := harg.text
  exact commandsParseTidArg_eq_some.mpr
    ⟨blanks, b :: rest, rfl, hblanks, by simp, hdigit, hvalue, by omega⟩

theorem tidText_of_parse {arg : Bytes} {tid : Nat} (h : commandsParseTidArg arg = some tid) :
    TidText arg tid := by
  obtain ⟨blanks, digits, rfl, hblanks, hdigits⟩ := commandsParseTidArg_eq_some.mp h
  obtain ⟨b, rest, rfl⟩ := List.exists_cons_of_ne_nil hdigits.ne_nil
  have hfirst := not_isBlank_of_isDigit (hdigits.digit b List.mem_cons_self)
  have hle := hdigits.le
  exact ⟨b :: rest, ⟨⟨blanks, rfl, hblanks⟩, b, rest, rfl, hfirst⟩, hdigits.digit, hdigits.value,
    by omega⟩

/-! ### One grammar for three commands -/

/-- The arguments behind a command word: blanks, a name without blanks, blanks, and a text that
    does not start with one. -/
@[ext] structure ArgSplit (rest : Bytes) where
  lead : Bytes
  name : Bytes
  gap : Bytes
  text : Bytes
  eq : rest = lead ++ (name ++ (gap ++ text))
  lead_blank : ∀ b ∈ lead, IsBlank b
  name_plain : name ≠ [] ∧ ∀ b ∈ name, ¬ IsBlank b
  gap_blank : gap ≠ [] ∧ ∀ b ∈ gap, IsBlank b
  text_plain : ∃ b tail, text = b :: tail ∧ ¬ IsBlank b

/-- A name and a text split the argument. -/
theorem NameText.argSplit {rest name text : Bytes} (h : NameText rest name text) :
    ∃ s : ArgSplit rest, s.name = name ∧ s.text = text := by
  obtain ⟨lead, gap, heq, hlead, hgap, hne⟩ := h.split
  exact ⟨⟨lead, name, gap, text, heq, hlead, h.name, ⟨hne, hgap⟩, h.text⟩, rfl, rfl⟩

/-- The text is what is behind the blanks. -/
theorem OneText.skipBlanks_eq {arg text : Bytes} (h : OneText arg text) :
    skipBlanks arg = text := by
  obtain ⟨blanks, rfl, hblanks⟩ := h.split
  obtain ⟨b, rest, rfl, hb⟩ := h.text
  exact skipBlanks_blanks_append hblanks hb

namespace ArgSplit

variable {rest : Bytes}

/-- What the parser sees behind the blanks. -/
theorem skipBlanks_eq (s : ArgSplit rest) : skipBlanks rest = s.name ++ (s.gap ++ s.text) := by
  obtain ⟨b, tail, hname⟩ := List.exists_cons_of_ne_nil s.name_plain.1
  have hb : ¬ IsBlank b := s.name_plain.2 b (hname ▸ List.mem_cons_self)
  conv_lhs => rw [s.eq]
  rw [hname]
  exact skipBlanks_blanks_append s.lead_blank hb

/-- The name ends at the first blank, so the scan stops where the split says. -/
theorem takeWhile_eq (s : ArgSplit rest) :
    (s.name ++ (s.gap ++ s.text)).takeWhile (fun b => ¬ decide (IsBlank b)) = s.name := by
  obtain ⟨g, gs, hgap⟩ := List.exists_cons_of_ne_nil s.gap_blank.1
  have hg : IsBlank g := s.gap_blank.2 g (hgap ▸ List.mem_cons_self)
  rw [List.takeWhile_append_of_pos (fun b hb => by simpa using s.name_plain.2 b hb), hgap,
    List.cons_append, List.takeWhile_cons_of_neg (by simpa using hg), List.append_nil]

/-- **Completeness**: what can be split is parsed, as long as the name fits. -/
theorem parse_eq (s : ArgSplit rest) {nameSz : Nat} (h : s.name.length < nameSz) :
    parseNameText rest nameSz = some (s.name, s.text) := by
  obtain ⟨b, tail, htext, hb⟩ := s.text_plain
  have hskip : skipBlanks (s.gap ++ s.text) = s.text := by
    rw [htext]
    exact skipBlanks_blanks_append s.gap_blank.2 hb
  have hpos := List.length_pos_of_ne_nil s.name_plain.1
  simp only [parseNameText, s.skipBlanks_eq, s.takeWhile_eq, List.drop_left, hskip]
  rw [if_neg (List.append_ne_nil_of_left_ne_nil s.name_plain.1 _), if_neg (by omega),
    if_neg (by simp [htext])]

/-- **Uniqueness**: arguments are split in one way only. -/
theorem eq_of (s t : ArgSplit rest) : s = t := by
  -- with room for both names the parser finds each of them
  have hs : parseNameText rest (s.name.length + t.name.length + 1) = _ := s.parse_eq (by omega)
  have ht : parseNameText rest (s.name.length + t.name.length + 1) = _ := t.parse_eq (by omega)
  obtain ⟨hname, htext⟩ := Prod.mk.inj (Option.some.inj (hs.symm.trans ht))
  have hskip := s.skipBlanks_eq.symm.trans t.skipBlanks_eq
  have hgap : s.gap = t.gap := by
    rw [hname, htext] at hskip
    exact List.append_cancel_right (List.append_cancel_left hskip)
  have hlead : s.lead ++ (s.name ++ (s.gap ++ s.text)) =
      t.lead ++ (s.name ++ (s.gap ++ s.text)) := by
    rw [← s.eq, hskip]
    exact t.eq
  replace hlead : s.lead = t.lead := List.append_cancel_right hlead
  ext1 <;> assumption

end ArgSplit

theorem NameText.parse_eq {rest name text : Bytes} (h : NameText rest name text) {nameSz : Nat}
    (hfits : name.length < nameSz) : parseNameText rest nameSz = some (name, text) := by
  obtain ⟨s, rfl, rfl⟩ := h.argSplit
  exact s.parse_eq hfits

theorem NameText.parseSendfile_eq {line target filename : Bytes}
    (h : NameText (line.drop 9) target filename) {targetSz filenameSz : Nat}
    (htarget : target.length < targetSz) (hfilename : filename.length < filenameSz) :
    commandsParseSendfile line targetSz filenameSz = some (target, filename) := by
  rw [commandsParseSendfile, h.parse_eq htarget]
  exact if_neg (by omega)

/-- **The parser finds the split**, whenever the name fits. -/
theorem parseNameText_eq_some {rest name text : Bytes} {nameSz : Nat} :
    parseNameText rest nameSz = some (name, text) ↔
      ∃ s : ArgSplit rest, s.name = name ∧ s.text = text ∧ name.length < nameSz := by
  constructor
  · intro h
    obtain ⟨s, hname, htext⟩ := (nameText_of_parse h).argSplit
    exact ⟨s, hname, htext, parseNameText_length h⟩
  · rintro ⟨s, rfl, rfl, hlen⟩
    exact s.parse_eq hlen

theorem commandsParseSendfile_eq_filter (rest : Bytes) (targetSz filenameSz : Nat) :
    commandsParseSendfile (utf8 "/sendfile" ++ rest) targetSz filenameSz =
      (parseNameText rest targetSz).filter fun args => args.2.length < filenameSz := by
  have hdrop : (utf8 "/sendfile" ++ rest).drop 9 = rest := List.drop_left' (by decide)
  unfold commandsParseSendfile
  rw [hdrop]
  cases parseNameText rest targetSz with
  | none => rfl
  | some args =>
    simp only [Option.filter, decide_eq_true_eq]
    by_cases hlen : args.2.length < filenameSz
    · rw [if_neg (by omega), if_pos hlen]
    · rw [if_pos (by omega), if_neg hlen]

/-- **One grammar**: each of the three parsers accepts exactly the arguments that can be split
    into a name and a text that fit, there is one split at most, and on equal arguments the three
    agree up to the limit on file names. -/
theorem name_text_grammar (rest : Bytes) (nameSz filenameSz : Nat) :
    (∀ target msg, commandsParsePriv (utf8 "/priv" ++ rest) nameSz = some (target, msg) ↔
      ∃ s : ArgSplit rest, s.name = target ∧ s.text = msg ∧ target.length < nameSz) ∧
    (∀ group msg, commandsParseGmsg (utf8 "/gmsg" ++ rest) nameSz = some (group, msg) ↔
      ∃ s : ArgSplit rest, s.name = group ∧ s.text = msg ∧ group.length < nameSz) ∧
    (∀ target filename,
      commandsParseSendfile (utf8 "/sendfile" ++ rest) nameSz filenameSz =
          some (target, filename) ↔
        ∃ s : ArgSplit rest, s.name = target ∧ s.text = filename ∧ target.length < nameSz ∧
          filename.length < filenameSz) ∧
    (∀ s t : ArgSplit rest, s = t) ∧
    commandsParseGmsg (utf8 "/gmsg" ++ rest) nameSz =
      commandsParsePriv (utf8 "/priv" ++ rest) nameSz ∧
    commandsParseSendfile (utf8 "/sendfile" ++ rest) nameSz filenameSz =
      (commandsParsePriv (utf8 "/priv" ++ rest) nameSz).filter
        fun args => args.2.length < filenameSz := by
  have hpriv : commandsParsePriv (utf8 "/priv" ++ rest) nameSz = parseNameText rest nameSz :=
    congrArg (parseNameText · nameSz) (List.drop_left' (by decide))
  have hgmsg : commandsParseGmsg (utf8 "/gmsg" ++ rest) nameSz = parseNameText rest nameSz :=
    congrArg (parseNameText · nameSz) (List.drop_left' (by decide))
  rw [hpriv, hgmsg, commandsParseSendfile_eq_filter]
  refine ⟨fun _ _ => parseNameText_eq_some, fun _ _ => parseNameText_eq_some, ?_, ArgSplit.eq_of,
    rfl, rfl⟩
  intro target filename
  rw [Option.filter_eq_some_iff, parseNameText_eq_some, decide_eq_true_eq]
  constructor
  · rintro ⟨⟨s, hname, htext, hlen⟩, hfile⟩
    exact ⟨s, hname, htext, hlen, hfile⟩
  · rintro ⟨s, hname, htext, hlen, hfile⟩
    exact ⟨⟨s, hname, htext, hlen⟩, hfile⟩

end TCPClient
