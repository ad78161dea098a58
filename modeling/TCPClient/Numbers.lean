import TCPClient.Commands
import TCPClient.Announcement

namespace TCPClient

open Octets

/-!
# One reading of decimal numbers

`utils_parse_u64_range` and the two callers that narrow its result to a transfer id: the argument
of a `/`-command and the `#<digits>` of an announcement.  `TidDigits` is the language both accept
and the number they read.
-/

/-- The two ways an announcement starts, and what the classification makes of them. -/
def AnnouncedAs (p : Bytes) (num : Bytes) (kind : FileAnnKind) : Prop :=
  p = incomingPrefix ++ num ∧ kind = .recvPending ∨
    p = filePrefix ++ num ∧ announcementKind p = some kind

theorem fileParseAnnouncement_eq_some {text : Bytes} {kind : FileAnnKind} {tid : Nat} :
    fileParseAnnouncement text = some (kind, tid) ↔
      ∃ num, AnnouncedAs (stripServerPrefix text) num kind ∧ announcementTid num = some tid := by
  have hin : incomingPrefix.length = 24 := by decide
  have hfile : filePrefix.length = 15 := by decide
  unfold fileParseAnnouncement AnnouncedAs
  dsimp only
  generalize stripServerPrefix text = p
  by_cases hpi : incomingPrefix <+: p
  · obtain ⟨num, rfl⟩ := hpi
    rw [if_pos (List.prefix_append _ _), List.drop_left' hin]
    -- the two beginnings differ in their first letter
    have hnot : ∀ other, incomingPrefix ++ num ≠ filePrefix ++ other := by
      intro other h
      have hhead := congrArg List.head? h
      rw [List.head?_append_of_ne_nil _ (by decide), List.head?_append_of_ne_nil _ (by decide)]
        at hhead
      exact absurd hhead (by decide)
    constructor
    · intro h
      obtain ⟨n, hn, heq⟩ := Option.map_eq_some_iff.mp h
      obtain ⟨rfl, rfl⟩ := Prod.mk.inj heq
      exact ⟨num, Or.inl ⟨rfl, rfl⟩, hn⟩
    · rintro ⟨other, ⟨heq, rfl⟩ | ⟨heq, -⟩, htid⟩
      · rw [List.append_cancel_left heq, htid]
        rfl
      · exact absurd heq (hnot other)
  rw [if_neg hpi]
  by_cases hpf : filePrefix <+: p
  · obtain ⟨num, rfl⟩ := hpf
    rw [if_pos (List.prefix_append _ _), List.drop_left' hfile]
    constructor
    · intro h
      obtain ⟨n, hn, heq⟩ := Option.bind_eq_some_iff.mp h
      obtain ⟨k, hk, heq⟩ := Option.map_eq_some_iff.mp heq
      obtain ⟨rfl, rfl⟩ := Prod.mk.inj heq
      exact ⟨num, Or.inr ⟨rfl, hk⟩, hn⟩
    · rintro ⟨other, ⟨heq, -⟩ | ⟨heq, hkind⟩, htid⟩
      · exact absurd ⟨other, heq.symm⟩ hpi
      · rw [List.append_cancel_left heq, htid, Option.bind_some, ← heq, hkind]
        rfl
  · rw [if_neg hpf]
    constructor
    · intro h; exact absurd h (by simp)
    · rintro ⟨other, ⟨heq, -⟩ | ⟨heq, -⟩, -⟩
      · exact absurd ⟨other, heq.symm⟩ hpi
      · exact absurd ⟨other, heq.symm⟩ hpf

/-- A command and an announcement read the same id from the same digits, or none. -/
theorem announcementTid_eq_commandsParseTidArg {digits : Bytes} (hdigit : ∀ b ∈ digits, IsDigit b)
    {sep : UInt8} (hsep : sep = 58 ∨ sep = 32) (rest : Bytes) :
    announcementTid (digits ++ sep :: rest) = commandsParseTidArg digits := by
  have hskip : skipBlanks digits = digits := by
    by_cases hnil : digits = []
    · rw [hnil]
      rfl
    · have hblanks : ∀ b ∈ ([] : Bytes), IsBlank b := by simp
      exact skipBlanks_digits hblanks hnil hdigit
  rw [announcementTid_append hdigit hsep, commandsParseTidArg_eq_filter, hskip]

/-- In an accepted range the loop is, after every digit, at the number read so far. -/
theorem parseWordFrom_prefix {front tail : Bytes} {n : Nat}
    (h : utilsParseU64Range (front ++ tail) = some n) :
    ∃ v : UInt64, parseWordFrom 0 front = some v ∧ v.toNat = decimalValue 0 front := by
  obtain ⟨-, hdigit, hlt, -⟩ := (utilsParseU64Range_eq_some _ _).mp h
  have hfront : decimalValue 0 front < 2 ^ 64 := by
    refine lt_of_le_of_lt ?_ hlt
    rw [decimalValue_append]
    exact le_decimalValue _ tail
  have hloop : parseU64From 0 front = some (decimalValue 0 front) :=
    (parseU64From_eq 0 front (by decide) _).mpr
      ⟨fun b hb => hdigit b (List.mem_append_left tail hb), hfront, rfl⟩
  have hword := parseWordFrom_toNat 0 front
  rw [UInt64.toNat_zero, hloop] at hword
  exact Option.map_eq_some_iff.mp hword

/-- **Decimal parsing is exact.** A range is read exactly when it is a digit string below `2^64`,
    as its number and without a wrap-around on the way; the two readers of transfer ids accept
    exactly the digit strings of 32-bit numbers in their place, and read the same number. -/
theorem decimal_parsing_exact :
    (∀ range n, utilsParseU64Range range = some n ↔
      range ≠ [] ∧ (∀ b ∈ range, IsDigit b) ∧ decimalValue 0 range < 2 ^ 64 ∧
        n = decimalValue 0 range) ∧
    (∀ range, (utilsParseWordRange range).map UInt64.toNat = utilsParseU64Range range) ∧
    (∀ front tail n, utilsParseU64Range (front ++ tail) = some n →
      ∃ v : UInt64, parseWordFrom 0 front = some v ∧ v.toNat = decimalValue 0 front) ∧
    (∀ arg tid, commandsParseTidArg arg = some tid ↔
      ∃ blanks digits, arg = blanks ++ digits ∧ (∀ b ∈ blanks, IsBlank b) ∧
        TidDigits digits tid) ∧
    (∀ text kind tid, fileParseAnnouncement text = some (kind, tid) ↔
      ∃ digits sep rest, AnnouncedAs (stripServerPrefix text) (digits ++ sep :: rest) kind ∧
        (sep = 58 ∨ sep = 32) ∧ TidDigits digits tid) ∧
    (∀ digits sep rest, (∀ b ∈ digits, IsDigit b) → sep = 58 ∨ sep = 32 →
      announcementTid (digits ++ sep :: rest) = commandsParseTidArg digits) := by
  refine ⟨utilsParseU64Range_eq_some, utilsParseWordRange_toNat,
    fun _ _ _ => parseWordFrom_prefix, fun _ _ => commandsParseTidArg_eq_some, ?_,
    fun _ _ rest hdigit hsep => announcementTid_eq_commandsParseTidArg hdigit hsep rest⟩
  intro text kind tid
  rw [fileParseAnnouncement_eq_some]
  constructor
  · rintro ⟨num, has, htid⟩
    obtain ⟨digits, sep, rest, rfl, hsep, h⟩ := announcementTid_eq_some.mp htid
    exact ⟨digits, sep, rest, has, hsep, h⟩
  · rintro ⟨digits, sep, rest, has, hsep, h⟩
    exact ⟨_, has, announcementTid_eq_some.mpr ⟨digits, sep, rest, rfl, hsep, h⟩⟩

end TCPClient
