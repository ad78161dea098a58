import TCPClient.Utils
import Mathlib.Data.List.Nodup
import Mathlib.Data.List.TakeWhile

namespace TCPClient

open Octets

/-!
# `file.c` — names and paths of received files

`file_basename_sanitize`, `file_unique_name` and `file_join_path`.  A name that does not fit
its buffer is refused, so a result is always the whole name.
-/

/-- The value of a `char`, which is signed on the platform the client is built for. -/
def charValue (b : UInt8) : Int := if b.toNat < 128 then b.toNat else (b.toNat : Int) - 256

/-- The part of `raw` behind the last `/` or `\`. -/
def baseName (raw : Bytes) : Bytes :=
  (raw.reverse.takeWhile fun b => b ≠ 47 ∧ b ≠ 92).reverse

/-- `file_basename_sanitize`: `_` for every character below `0x20`. -/
def fileBasenameSanitize (raw : Bytes) (outSz : Nat) : Option Bytes :=
  let base := baseName raw
  if base.length = 0 ∨ base.length ≥ outSz then none
  else if base = utf8 "." ∨ base = utf8 ".." then none
  else some (base.map fun c => if charValue c < 0x20 then 95 else c)

/-- The `i`-th candidate of `file_unique_name`: `base`, `base (1)`, `base (2)`, … -/
def uniqueCandidate (base : Bytes) (i : Nat) : Bytes :=
  if i = 0 then base else base ++ (utf8 " (" ++ (decimal i ++ utf8 ")"))

/-- The loop of `file_unique_name`, with `fuel` candidates left from number `i`. -/
def uniqueNameFrom (base : Bytes) (taken : Bytes → Bool) (outSz : Nat) : Nat → Nat → Option Bytes
  | 0, _ => none
  | fuel + 1, i =>
    let candidate := uniqueCandidate base i
    if candidate.length ≥ 512 then none
    else if ¬ taken candidate then
      if candidate.length ≥ outSz then none else some candidate
    else uniqueNameFrom base taken outSz fuel (i + 1)

/-- `file_unique_name`: the first of a thousand candidates that is free. -/
def fileUniqueName (base : Bytes) (taken : Bytes → Bool) (outSz : Nat) : Option Bytes :=
  uniqueNameFrom base taken outSz 1000 0

/-- `file_join_path`. -/
def fileJoinPath (dir name : Bytes) (outSz : Nat) : Option Bytes :=
  let path := dir ++ (utf8 "/" ++ name)
  if path.length ≥ outSz then none else some path

/-- A chosen name is one of the candidates, is free, and fits. -/
theorem fileUniqueName_spec {base name : Bytes} {taken : Bytes → Bool} {outSz : Nat}
    (h : fileUniqueName base taken outSz = some name) :
    (∃ i, name = uniqueCandidate base i) ∧ taken name = false ∧ name.length < outSz := by
  have key : ∀ (fuel i : Nat), uniqueNameFrom base taken outSz fuel i = some name →
      (∃ i, name = uniqueCandidate base i) ∧ taken name = false ∧ name.length < outSz := by
    intro fuel
    induction fuel with
    | zero => intro i h; exact absurd h (by simp [uniqueNameFrom])
    | succ fuel ih =>
      intro i h
      rw [uniqueNameFrom] at h
      split_ifs at h with h1 h2 h3
      · exact ih (i + 1) h
      · have hname := Option.some.inj h
        subst hname
        exact ⟨⟨i, rfl⟩, by simpa using h2, by omega⟩
  exact key 1000 0 h

/-- Every candidate starts with the base, so a chosen name is empty only if the base is. -/
theorem fileUniqueName_ne_nil {base name : Bytes} {taken : Bytes → Bool} {outSz : Nat}
    (hbase : base ≠ []) (h : fileUniqueName base taken outSz = some name) : name ≠ [] := by
  obtain ⟨⟨i, rfl⟩, -, -⟩ := fileUniqueName_spec h
  unfold uniqueCandidate
  split_ifs
  · exact hbase
  · exact List.append_ne_nil_of_left_ne_nil hbase _

/-- A sanitized name is not empty. -/
theorem fileBasenameSanitize_ne_nil {raw name : Bytes} {outSz : Nat}
    (h : fileBasenameSanitize raw outSz = some name) : name ≠ [] := by
  simp only [fileBasenameSanitize] at h
  split_ifs at h with h1 h2
  have hname := Option.some.inj h
  subst hname
  intro hnil
  exact h1 (Or.inl (by simpa using congrArg List.length hnil))

/-! ### What the sanitizer does to a name -/

/-- A path separator. -/
def IsSeparator (b : UInt8) : Prop := b = 47 ∨ b = 92

/-- `baseName` is what stands behind the last separator. -/
theorem baseName_split (raw : Bytes) :
    ∃ dir, raw = dir ++ baseName raw ∧ (∀ b ∈ baseName raw, ¬ IsSeparator b) ∧
      (dir = [] ∨ ∃ front sep, dir = front ++ [sep] ∧ IsSeparator sep) := by
  have hsplit := List.takeWhile_append_dropWhile
    (p := fun b : UInt8 => decide (b ≠ 47 ∧ b ≠ 92)) (l := raw.reverse)
  refine ⟨(raw.reverse.dropWhile fun b => decide (b ≠ 47 ∧ b ≠ 92)).reverse, ?_, ?_, ?_⟩
  · unfold baseName
    rw [← List.reverse_append, hsplit, List.reverse_reverse]
  · intro b hb hsep
    have hplain := List.mem_takeWhile_imp (List.mem_reverse.mp hb)
    rw [decide_eq_true_eq] at hplain
    exact hsep.elim hplain.1 hplain.2
  · cases hrest : raw.reverse.dropWhile fun b => decide (b ≠ 47 ∧ b ≠ 92) with
    | nil => exact Or.inl rfl
    | cons sep front =>
      -- the scan from behind stopped at this byte
      have hhead := List.head_dropWhile_not (fun b : UInt8 => decide (b ≠ 47 ∧ b ≠ 92))
        (l := raw.reverse) (by rw [hrest]; simp)
      simp only [hrest, List.head_cons, decide_eq_false_iff_not, not_and_or, not_not] at hhead
      exact Or.inr ⟨front.reverse, sep, by simp, hhead⟩

/-- A name that can be kept: it is there, leaves room for its NUL, and is no directory entry of
    every directory. -/
def Legitimate (base : Bytes) (outSz : Nat) : Prop :=
  base ≠ [] ∧ base.length < outSz ∧ base ≠ utf8 "." ∧ base ≠ utf8 ".."

instance (base : Bytes) (outSz : Nat) : Decidable (Legitimate base outSz) :=
  inferInstanceAs (Decidable (base ≠ [] ∧ base.length < outSz ∧ base ≠ utf8 "." ∧
    base ≠ utf8 ".."))

/-- A control byte of a C string. -/
def IsControl (b : UInt8) : Prop := 1 ≤ b.toNat ∧ b.toNat ≤ 0x1F

instance : DecidablePred IsControl := fun b =>
  inferInstanceAs (Decidable (1 ≤ b.toNat ∧ b.toNat ≤ 0x1F))

/-- What the note of `file_basename_sanitize` promises: `_` for control bytes, and for nothing
    else. -/
def controlsReplaced (base : Bytes) : Bytes := base.map fun b => if IsControl b then 95 else b

theorem fileBasenameSanitize_eq (raw : Bytes) (outSz : Nat) :
    fileBasenameSanitize raw outSz =
      if Legitimate (baseName raw) outSz then
        some ((baseName raw).map fun c => if charValue c < 0x20 then 95 else c)
      else none := by
  unfold fileBasenameSanitize
  dsimp only
  by_cases hlegit : Legitimate (baseName raw) outSz
  · obtain ⟨hne, hlen, hdot, hdotdot⟩ := hlegit
    have hpos := List.length_pos_of_ne_nil hne
    rw [if_neg (by omega), if_neg (by simp [hdot, hdotdot]),
      if_pos ⟨hne, hlen, hdot, hdotdot⟩]
  · rw [if_neg hlegit]
    split_ifs with hlen hdots
    · rfl
    · rfl
    · refine absurd ⟨?_, by omega, ?_, ?_⟩ hlegit
      · exact fun hnil => hlen (Or.inl (by rw [hnil]; rfl))
      · exact fun hdot => hdots (Or.inl hdot)
      · exact fun hdotdot => hdots (Or.inr hdotdot)

/-- As a signed `char` every byte from `0x80` on is below the blank, like the control bytes. -/
theorem charValue_lt_iff {b : UInt8} (h : b ≠ 0) :
    charValue b < 0x20 ↔ IsControl b ∨ 128 ≤ b.toNat := by
  have hpos : b.toNat ≠ 0 := fun h0 => h (UInt8.toNat_inj.mp h0)
  have hlt : b.toNat < 256 := b.toNat_lt
  unfold charValue IsControl
  split_ifs <;> omega

/-- **Names are kept or refused as promised** unless a legitimate one has a byte from `0x80` on. -/
theorem fileBasenameSanitize_preserves_iff {raw : Bytes} (hraw : 0 ∉ raw) (outSz : Nat) :
    fileBasenameSanitize raw outSz =
        (if Legitimate (baseName raw) outSz then some (controlsReplaced (baseName raw))
        else none) ↔
      ¬ (Legitimate (baseName raw) outSz ∧ ∃ b ∈ baseName raw, 128 ≤ b.toNat) := by
  rw [fileBasenameSanitize_eq]
  by_cases hlegit : Legitimate (baseName raw) outSz
  swap
  · simp [hlegit]
  have hnul : ∀ b ∈ baseName raw, b ≠ 0 := by
    obtain ⟨dir, hsplit, -⟩ := baseName_split raw
    rintro b hb rfl
    apply hraw
    rw [hsplit]
    exact List.mem_append_right dir hb
  rw [if_pos hlegit, if_pos hlegit, Option.some.injEq, controlsReplaced, List.map_inj_left]
  constructor
  · rintro hsame ⟨-, b, hb, hhigh⟩
    have hreplaced := hsame b hb
    rw [if_pos ((charValue_lt_iff (hnul b hb)).mpr (Or.inr hhigh)),
      if_neg (by unfold IsControl; omega)] at hreplaced
    subst hreplaced
    exact absurd hhigh (by decide)
  · intro hlow b hb
    have hascii : ¬ 128 ≤ b.toNat := fun hhigh => hlow ⟨hlegit, b, hb, hhigh⟩
    by_cases hcontrol : IsControl b
    · rw [if_pos ((charValue_lt_iff (hnul b hb)).mpr (Or.inl hcontrol)), if_pos hcontrol]
    · have hkept : ¬ charValue b < 0x20 := fun h =>
        ((charValue_lt_iff (hnul b hb)).mp h).elim hcontrol hascii
      rw [if_neg hkept, if_neg hcontrol]

/-- A path in front of an ASCII name with a tab. -/
theorem fileBasenameSanitize_preserves_tab :
    fileBasenameSanitize (utf8 "../docs/a\tb.txt") maxFilenameLen =
      (if Legitimate (baseName (utf8 "../docs/a\tb.txt")) maxFilenameLen then
        some (controlsReplaced (baseName (utf8 "../docs/a\tb.txt"))) else none) :=
  (fileBasenameSanitize_preserves_iff (by decide) maxFilenameLen).mpr (by decide)

/-- A Chinese name of six bytes is kept as six underscores. -/
theorem fileBasenameSanitize_chinese :
    fileBasenameSanitize (utf8 "文件") maxFilenameLen = some (utf8 "______") ∧
      fileBasenameSanitize (utf8 "文件") maxFilenameLen ≠
        (if Legitimate (baseName (utf8 "文件")) maxFilenameLen then
          some (controlsReplaced (baseName (utf8 "文件"))) else none) := by
  decide

/-! ### A name that stays in its directory -/

/-- A single path component that names a file. -/
structure SingleComponent (name : Bytes) : Prop where
  ne_nil : name ≠ []
  length_le : name.length ≤ 255
  plain : ∀ b ∈ name, ¬ IsSeparator b ∧ ¬ IsControl b
  ne_dot : name ≠ utf8 "."
  ne_dotdot : name ≠ utf8 ".."

/-- What replaces a byte is no separator, no control byte and no dot that was not there. -/
theorem singleComponent_sanitize {raw base : Bytes}
    (h : fileBasenameSanitize raw maxFilenameLen = some base) : SingleComponent base := by
  rw [fileBasenameSanitize_eq] at h
  split_ifs at h with hlegit
  obtain rfl := Option.some.inj h
  obtain ⟨hne, hlen, hdot, hdotdot⟩ := hlegit
  obtain ⟨-, -, hplain, -⟩ := baseName_split raw
  have hdots : ∀ c : UInt8, (if charValue c < 0x20 then (95 : UInt8) else c) = 46 → c = 46 := by
    intro c hc
    split_ifs at hc
    · exact absurd hc (by decide)
    · exact hc
  generalize baseName raw = base at hne hlen hdot hdotdot hplain ⊢
  refine ⟨by simpa using hne, by rw [List.length_map]; exact Nat.le_of_lt_succ hlen, ?_, ?_, ?_⟩
  · intro b hb
    obtain ⟨c, hc, rfl⟩ := List.mem_map.mp hb
    split_ifs with hlow
    · exact ⟨by unfold IsSeparator; decide, by decide⟩
    · refine ⟨hplain c hc, fun hcontrol => hlow ?_⟩
      unfold charValue
      unfold IsControl at hcontrol
      split_ifs <;> omega
  · intro hmap
    apply hdot
    obtain ⟨c, tail, rfl, hc, htail⟩ := List.map_eq_cons_iff.mp hmap
    rw [List.map_eq_nil_iff.mp htail, hdots c hc]
    rfl
  · intro hmap
    apply hdotdot
    obtain ⟨c, tail, rfl, hc, hmore⟩ := List.map_eq_cons_iff.mp hmap
    obtain ⟨d, tail, rfl, hd, htail⟩ := List.map_eq_cons_iff.mp hmore
    rw [List.map_eq_nil_iff.mp htail, hdots c hc, hdots d hd]
    rfl

/-- A number behind a name makes no other component of it. -/
theorem SingleComponent.candidate {base : Bytes} (h : SingleComponent base) (i : Nat)
    (hlen : (uniqueCandidate base i).length ≤ 255) : SingleComponent (uniqueCandidate base i) := by
  unfold uniqueCandidate at hlen ⊢
  split_ifs at hlen ⊢ with hi
  · exact h
  have hlong : 3 ≤ (base ++ (utf8 " (" ++ (decimal i ++ utf8 ")"))).length := by
    simp only [List.length_append]
    have h2 : (utf8 " (").length = 2 := by decide
    have h1 : (utf8 ")").length = 1 := by decide
    omega
  refine ⟨List.append_ne_nil_of_left_ne_nil h.ne_nil _, hlen, ?_, ?_, ?_⟩
  · intro b hb
    -- what stands around the number
    have hlit {text : Bytes} (hall : (text.all fun b => ¬ (b = 47 ∨ b = 92) ∧ ¬ IsControl b) = true)
        (hb : b ∈ text) : ¬ (b = 47 ∨ b = 92) ∧ ¬ IsControl b :=
      of_decide_eq_true (List.all_eq_true.mp hall b hb)
    simp only [List.mem_append] at hb
    rcases hb with hb | hb | hb | hb
    · exact h.plain b hb
    · exact hlit (by decide) hb
    · -- the digits are neither
      have hdigit := mem_decimal hb
      unfold IsDigit at hdigit
      refine ⟨?_, fun hcontrol => ?_⟩
      · rintro (rfl | rfl)
        · exact absurd hdigit (by decide)
        · exact absurd hdigit (by decide)
      · unfold IsControl at hcontrol
        omega
    · exact hlit (by decide) hb
  · intro hdot
    rw [hdot] at hlong
    exact absurd hlong (by decide)
  · intro hdotdot
    rw [hdotdot] at hlong
    exact absurd hlong (by decide)

/-- **The save name** that comes out of sanitizing and numbering is a single free component. -/
theorem singleComponent_unique {raw base name : Bytes} {taken : Bytes → Bool}
    (hbase : fileBasenameSanitize raw maxFilenameLen = some base)
    (hname : fileUniqueName base taken maxFilenameLen = some name) :
    SingleComponent name ∧ taken name = false := by
  obtain ⟨⟨i, rfl⟩, hfree, hlen⟩ := fileUniqueName_spec hname
  exact ⟨(singleComponent_sanitize hbase).candidate i (Nat.le_of_lt_succ hlen), hfree⟩

/-! ### The numbered candidates -/

theorem decimal_injective : Function.Injective decimal := by
  intro m n h
  rw [← decimalValue_decimal m, h, decimalValue_decimal]

/-- No two candidates are the same name. -/
theorem uniqueCandidate_injective (base : Bytes) : Function.Injective (uniqueCandidate base) := by
  intro i j h
  have hlong (k : Nat) : base ≠ base ++ (utf8 " (" ++ (decimal k ++ utf8 ")")) := by
    intro heq
    have hlen := congrArg List.length heq
    have h2 : (utf8 " (").length = 2 := by decide
    simp only [List.length_append] at hlen
    omega
  unfold uniqueCandidate at h
  split_ifs at h with hi hj hj
  · rw [hi, hj]
  · exact absurd h (hlong j)
  · exact absurd h.symm (hlong i)
  · -- behind the base and the parenthesis the numerals are the same
    have htail := List.append_cancel_left (List.append_cancel_left h)
    exact decimal_injective (List.append_cancel_right htail)

/-- The internal buffer has room for every candidate of a base of at most 255 bytes. -/
theorem length_uniqueCandidate_lt {base : Bytes} (hbase : base.length ≤ 255) {i : Nat}
    (hi : i < 1000) : (uniqueCandidate base i).length < 512 := by
  have hdigits : (decimal i).length ≤ 3 := length_decimal_le (by decide) hi
  have h2 : (utf8 " (").length = 2 := by decide
  have h1 : (utf8 ")").length = 1 := by decide
  unfold uniqueCandidate
  split_ifs
  · omega
  · simp only [List.length_append]
    omega

/-- The candidates of `file_unique_name` in the order they are tried. -/
def uniqueCandidates (base : Bytes) : List Bytes := (List.range 1000).map (uniqueCandidate base)

theorem nodup_uniqueCandidates (base : Bytes) : (uniqueCandidates base).Nodup :=
  List.nodup_range.map (uniqueCandidate_injective base)

/-- The loop searches the candidates it has left. -/
theorem uniqueNameFrom_eq_find {base : Bytes} (hbase : base.length ≤ 255) (taken : Bytes → Bool)
    (outSz : Nat) {fuel i : Nat} (hi : i + fuel ≤ 1000) :
    uniqueNameFrom base taken outSz fuel i =
      (((List.range' i fuel).map (uniqueCandidate base)).find? fun name => !taken name).filter
        fun name => name.length < outSz := by
  induction fuel generalizing i with
  | zero => rfl
  | succ fuel ih =>
    have hfit : ¬ (uniqueCandidate base i).length ≥ 512 :=
      Nat.not_le_of_lt (length_uniqueCandidate_lt hbase (by omega))
    rw [uniqueNameFrom, List.range'_succ, List.map_cons, if_neg hfit]
    cases htaken : taken (uniqueCandidate base i) with
    | true => rw [if_neg (by simp), ih (by omega), List.find?_cons_of_neg (by simp [htaken])]
    | false =>
      rw [if_pos (by simp), List.find?_cons_of_pos (by simp [htaken])]
      by_cases hout : (uniqueCandidate base i).length < outSz
      · rw [if_neg (by omega), Option.filter_some_pos (by simpa using hout)]
      · rw [if_pos (by omega), Option.filter_some_neg (by simpa using hout)]

/-- `file_unique_name` is a search for the first free candidate, which then has to fit. -/
theorem fileUniqueName_eq_find {base : Bytes} (hbase : base.length ≤ 255) (taken : Bytes → Bool)
    (outSz : Nat) :
    fileUniqueName base taken outSz =
      ((uniqueCandidates base).find? fun name => !taken name).filter
        fun name => name.length < outSz := by
  rw [fileUniqueName, uniqueNameFrom_eq_find hbase taken outSz (le_refl 1000), uniqueCandidates,
    List.range_eq_range']

/-- Candidate `i` is the first that is free. -/
def FirstFree (base : Bytes) (taken : Bytes → Bool) (i : Nat) : Prop :=
  i < 1000 ∧ taken (uniqueCandidate base i) = false ∧
    ∀ j < i, taken (uniqueCandidate base j) = true

theorem find_uniqueCandidates_eq_some {base name : Bytes} {taken : Bytes → Bool} :
    ((uniqueCandidates base).find? fun name => !taken name) = some name ↔
      ∃ i, FirstFree base taken i ∧ name = uniqueCandidate base i := by
  rw [uniqueCandidates, List.find?_map, Option.map_eq_some_iff]
  constructor
  · rintro ⟨i, hi, rfl⟩
    obtain ⟨hfree, hmem, hbefore⟩ := List.find?_range_eq_some.mp hi
    exact ⟨i, ⟨List.mem_range.mp hmem, by simpa using hfree, fun j hj => by
      simpa using hbefore j hj⟩, rfl⟩
  · rintro ⟨i, ⟨hi, hfree, hbefore⟩, rfl⟩
    exact ⟨i, List.find?_range_eq_some.mpr ⟨by simpa using hfree, List.mem_range.mpr hi,
      fun j hj => by simpa using hbefore j hj⟩, rfl⟩

/-! ### Saving again and again under one name -/

/-- `k` saves under the same base; each name that was chosen is taken from then on. -/
def uniqueNames (base : Bytes) (outSz : Nat) : Nat → (Bytes → Bool) → Option (List Bytes)
  | 0, _ => some []
  | k + 1, taken =>
    (fileUniqueName base taken outSz).bind fun name =>
      (uniqueNames base outSz k fun other => taken other || other = name).map (name :: ·)

/-- Once the first free name is taken, the others are what is free. -/
theorem filter_free_succ {names others : List Bytes} {taken : Bytes → Bool} {first : Bytes}
    (hnodup : names.Nodup) (hfree : (names.filter fun name => !taken name) = first :: others) :
    (names.filter fun name => !(taken name || decide (name = first))) = others := by
  have hnodup := hnodup.filter fun name => !taken name
  rw [hfree] at hnodup
  have hsplit : (names.filter fun name => !(taken name || decide (name = first))) =
      (first :: others).filter fun name => !decide (name = first) := by
    rw [← hfree, List.filter_filter]
    apply List.filter_congr
    intro name _
    rw [Bool.not_or, Bool.and_comm]
  rw [hsplit, List.filter_cons_of_neg (by simp), List.filter_eq_self]
  intro name hname
  have hne : name ≠ first := by
    rintro rfl
    exact (List.nodup_cons.mp hnodup).1 hname
  simpa using hne

/-- The saves take the free candidates in order, as long as there are any and they fit. -/
theorem uniqueNames_eq_some {base : Bytes} (hbase : base.length ≤ 255) {outSz k : Nat}
    {taken : Bytes → Bool} {names : List Bytes} :
    uniqueNames base outSz k taken = some names ↔
      names = ((uniqueCandidates base).filter fun name => !taken name).take k ∧
        names.length = k ∧ ∀ name ∈ names, name.length < outSz := by
  induction k generalizing taken names with
  | zero =>
    simp only [uniqueNames, Option.some.injEq, List.take_zero]
    constructor
    · rintro rfl
      simp
    · rintro ⟨rfl, -⟩
      rfl
  | succ k ih =>
    rw [uniqueNames, fileUniqueName_eq_find hbase, ← List.head?_filter]
    cases hfree : (uniqueCandidates base).filter fun name => !taken name with
    | nil =>
      simp only [List.head?_nil, Option.filter_none, Option.bind_none, List.take_nil]
      constructor
      · intro h; exact absurd h (by simp)
      · rintro ⟨rfl, hlen, -⟩; exact absurd hlen (by simp)
    | cons first others =>
      have hrest := filter_free_succ (nodup_uniqueCandidates base) hfree
      rw [List.head?_cons, List.take_succ_cons]
      by_cases hfit : first.length < outSz
      · rw [Option.filter_some_pos (by simpa using hfit), Option.bind_some,
          Option.map_eq_some_iff]
        constructor
        · rintro ⟨tail, htail, rfl⟩
          obtain ⟨heq, hlen, hall⟩ := ih.mp htail
          rw [hrest] at heq
          refine ⟨by rw [heq], by rw [List.length_cons, hlen], ?_⟩
          intro name hname
          rcases List.mem_cons.mp hname with rfl | hname
          · exact hfit
          · exact hall name hname
        · rintro ⟨rfl, hlen, hall⟩
          refine ⟨others.take k, ih.mpr ⟨by rw [hrest], by simpa using hlen, ?_⟩, rfl⟩
          exact fun name hname => hall name (List.mem_cons_of_mem first hname)
      · rw [Option.filter_some_neg (by simpa using hfit), Option.bind_none]
        constructor
        · intro h; exact absurd h (by simp)
        · rintro ⟨rfl, -, hall⟩
          exact absurd (hall first List.mem_cons_self) hfit

/-- **Unique naming**: the answer is the first free candidate, if there is one and it fits; the
    candidates are pairwise distinct; and repeated saves take the free candidates in order, so
    that their names are different from each other and from all that existed. -/
theorem unique_naming {base : Bytes} (hbase : base.length ≤ 255) (taken : Bytes → Bool)
    (outSz : Nat) :
    (∀ name, fileUniqueName base taken outSz = some name ↔
      ∃ i, FirstFree base taken i ∧ (uniqueCandidate base i).length < outSz ∧
        name = uniqueCandidate base i) ∧
    Function.Injective (uniqueCandidate base) ∧
    (∀ k names, uniqueNames base outSz k taken = some names ↔
      names = ((uniqueCandidates base).filter fun name => !taken name).take k ∧
        names.length = k ∧ ∀ name ∈ names, name.length < outSz) ∧
    (∀ k names, uniqueNames base outSz k taken = some names →
      names.length = k ∧ names.Nodup ∧ ∀ name ∈ names, taken name = false) := by
  refine ⟨fun name => ?_, uniqueCandidate_injective base, fun _ _ => uniqueNames_eq_some hbase,
    fun k names h => ?_⟩
  · rw [fileUniqueName_eq_find hbase, Option.filter_eq_some_iff, find_uniqueCandidates_eq_some,
      decide_eq_true_eq]
    constructor
    · rintro ⟨⟨i, hfirst, rfl⟩, hfit⟩
      exact ⟨i, hfirst, hfit, rfl⟩
    · rintro ⟨i, hfirst, hfit, rfl⟩
      exact ⟨⟨i, hfirst, rfl⟩, hfit⟩
  · obtain ⟨heq, hlen, -⟩ := (uniqueNames_eq_some hbase).mp h
    have hsub : names.Sublist ((uniqueCandidates base).filter fun name => !taken name) :=
      heq ▸ List.take_sublist k _
    refine ⟨hlen, ((nodup_uniqueCandidates base).filter _).sublist hsub, fun name hname => ?_⟩
    simpa using (List.mem_filter.mp (hsub.subset hname)).2

/-- Two saves of a name that exists already. -/
theorem unique_naming_exists :
    uniqueNames (utf8 "a.txt") maxFilenameLen 2 (fun name => name = utf8 "a.txt") =
        some [utf8 "a.txt (1)", utf8 "a.txt (2)"] ∧
      [utf8 "a.txt (1)", utf8 "a.txt (2)"].Nodup := by
  have hrun : uniqueNames (utf8 "a.txt") maxFilenameLen 2 (fun name => name = utf8 "a.txt") =
      some [utf8 "a.txt (1)", utf8 "a.txt (2)"] := by decide
  exact ⟨hrun, ((unique_naming (by decide) _ _).2.2.2 2 _ hrun).2.1⟩

end TCPClient
