import TCPClient.Utils
import TCPClient.Lib.Phrase

namespace TCPClient

open Octets Phrase

/-!
# `file_parse_announcement` — classifying the server's announcement texts

The server puts the transfer id into announcement texts only; the client strips an optional
`[Server] ` prefix, checks how the text starts, reads the id, and tells the kinds apart by a
chain of substring searches over the whole text.  The searches also see the user name or file
name inside the text.

`Announcement` lists the documented texts; `fileParseAnnouncement_text_iff` says for each of
them exactly which names leave the classification intact.
-/

/-- `file_ann_kind_t` without `FILE_ANN_NONE`, which goes with the `-1` answer. -/
inductive FileAnnKind where
  | sendPending
  | recvPending
  | accepted
  | rejected
  | complete
  | cancelled
  | cancelledDisc
  deriving DecidableEq, Repr

/-! ### The parser -/

def serverPrefix : Bytes := utf8 "[Server] "
def incomingPrefix : Bytes := utf8 "Incoming file transfer #"
def filePrefix : Bytes := utf8 "File transfer #"

/-- The phrases of the classification chain, in its order. -/
def waitingPhrase : Bytes := utf8 "Waiting for acceptance"
def acceptedPhrase : Bytes := utf8 "accepted by"
def rejectedPhrase : Bytes := utf8 "rejected by"
def completePhrase : Bytes := utf8 "complete"
def cancelledPhrase : Bytes := utf8 "cancelled by"
def cancelledDiscPhrase : Bytes := utf8 "cancelled: "

/-- The text behind the optional `[Server] ` prefix. -/
def stripServerPrefix (text : Bytes) : Bytes :=
  if serverPrefix <+: text then text.drop 9 else text

/-- The transfer id at `num`: digits up to a `:` or a blank, at most `UINT32_MAX`. -/
def announcementTid (num : Bytes) : Option Nat :=
  let digits := num.takeWhile (fun b => decide (IsDigit b))
  let dig := num.drop digits.length
  if digits = [] ∨ (dig.head? ≠ some 58 ∧ dig.head? ≠ some 32) then none
  else
    match utilsParseU64Range digits with
    | none => none
    | some tid => if tid > 2 ^ 32 - 1 then none else some tid

/-- The chain of `strstr` searches behind `File transfer #`. -/
def announcementKind (p : Bytes) : Option FileAnnKind :=
  if waitingPhrase <:+: p then some .sendPending
  else if acceptedPhrase <:+: p then some .accepted
  else if rejectedPhrase <:+: p then some .rejected
  else if completePhrase <:+: p then some .complete
  else if cancelledPhrase <:+: p then some .cancelled
  else if cancelledDiscPhrase <:+: p then some .cancelledDisc
  else none

/-- `file_parse_announcement`: kind and id, or `none` for `-1` with `FILE_ANN_NONE`. -/
def fileParseAnnouncement (text : Bytes) : Option (FileAnnKind × Nat) :=
  let p := stripServerPrefix text
  if incomingPrefix <+: p then
    (announcementTid (p.drop 24)).map fun tid => (.recvPending, tid)
  else if filePrefix <+: p then
    (announcementTid (p.drop 15)).bind fun tid => (announcementKind p).map fun kind => (kind, tid)
  else none

/-! ### Reading the id -/

/-- Digits with a `:` or a blank behind them are all that is scanned. -/
theorem announcementTid_append {digits : Bytes} (hdigit : ∀ b ∈ digits, IsDigit b) {sep : UInt8}
    (hsep : sep = 58 ∨ sep = 32) (rest : Bytes) :
    announcementTid (digits ++ sep :: rest) =
      (utilsParseU64Range digits).filter fun tid => tid ≤ 2 ^ 32 - 1 := by
  have hstop : ¬ IsDigit sep := by rcases hsep with rfl | rfl <;> decide
  have hscan : (digits ++ sep :: rest).takeWhile (fun b => decide (IsDigit b)) = digits := by
    rw [List.takeWhile_append_of_pos (fun b hb => decide_eq_true (hdigit b hb)),
      List.takeWhile_cons_of_neg (by simpa using hstop), List.append_nil]
  unfold announcementTid
  dsimp only
  rw [hscan, List.drop_left, List.head?_cons]
  by_cases hnil : digits = []
  · rw [if_pos (Or.inl hnil), hnil]
    rfl
  · have hok : ¬ (digits = [] ∨ some sep ≠ some 58 ∧ some sep ≠ some 32) := by
      rcases hsep with rfl | rfl <;> simp [hnil]
    rw [if_neg hok]
    exact narrowed_eq_filter (fun h => by rw [h]) (fun tid h => by rw [h])

/-- An id that was read stood there as digits with a `:` or a blank behind them. -/
theorem exists_digits_of_announcementTid {num : Bytes} {tid : Nat}
    (h : announcementTid num = some tid) :
    ∃ digits sep rest, num = digits ++ sep :: rest ∧ (sep = 58 ∨ sep = 32) ∧
      ∀ b ∈ digits, IsDigit b := by
  have hdigit : ∀ b ∈ num.takeWhile (fun b => decide (IsDigit b)), IsDigit b := by
    intro b hb
    simpa using List.mem_takeWhile_imp hb
  have hsplit := List.takeWhile_append_dropWhile (p := fun b => decide (IsDigit b)) (l := num)
  unfold announcementTid at h
  dsimp only at h
  rw [drop_length_takeWhile] at h
  split_ifs at h with hbad
  rw [not_or, not_and_or, not_not, not_not] at hbad
  generalize num.takeWhile (fun b => decide (IsDigit b)) = digits at hdigit hsplit
  cases hdig : num.dropWhile (fun b => decide (IsDigit b)) with
  | nil => simp [hdig] at hbad
  | cons sep rest =>
    rw [hdig] at hsplit hbad
    exact ⟨digits, sep, rest, hsplit.symm, by simpa using hbad.2, hdigit⟩

theorem announcementTid_eq_some {num : Bytes} {tid : Nat} :
    announcementTid num = some tid ↔
      ∃ digits sep rest, num = digits ++ sep :: rest ∧ (sep = 58 ∨ sep = 32) ∧
        TidDigits digits tid := by
  constructor
  · intro h
    obtain ⟨digits, sep, rest, rfl, hsep, hdigit⟩ := exists_digits_of_announcementTid h
    rw [announcementTid_append hdigit hsep, parse_filter_eq_some] at h
    exact ⟨digits, sep, rest, rfl, hsep, h⟩
  · rintro ⟨digits, sep, rest, rfl, hsep, h⟩
    rw [announcementTid_append h.digit hsep]
    exact parse_filter_eq_some.mpr h

/-- The id in front of a `:` or a blank is read back. -/
theorem announcementTid_decimal {tid : Nat} (htid : tid < 2 ^ 32) {b : UInt8}
    (hb : b = 58 ∨ b = 32) (rest : Bytes) :
    announcementTid (decimal tid ++ b :: rest) = some tid :=
  announcementTid_eq_some.mpr ⟨decimal tid, b, rest, rfl, hb, tidDigits_decimal htid⟩

/-- Every id that is read fits 32 bits. -/
theorem fileParseAnnouncement_tid_lt {text : Bytes} {kind : FileAnnKind} {tid : Nat}
    (h : fileParseAnnouncement text = some (kind, tid)) : tid < 2 ^ 32 := by
  have hread : ∀ {num : Bytes}, announcementTid num = some tid → tid < 2 ^ 32 := by
    intro num hnum
    obtain ⟨digits, sep, rest, -, -, hdigits⟩ := announcementTid_eq_some.mp hnum
    have hle := hdigits.le
    omega
  unfold fileParseAnnouncement at h
  dsimp only at h
  split_ifs at h with hin hfile
  · obtain ⟨n, hn, heq⟩ := Option.map_eq_some_iff.mp h
    obtain ⟨-, rfl⟩ := Prod.mk.inj heq
    exact hread hn
  · obtain ⟨n, hn, heq⟩ := Option.bind_eq_some_iff.mp h
    obtain ⟨k, -, heq⟩ := Option.map_eq_some_iff.mp heq
    obtain ⟨-, rfl⟩ := Prod.mk.inj heq
    exact hread hn

/-! ### The documented texts -/

/-- What the server announces about a transfer. -/
inductive Announcement where
  | waiting (file : Bytes) (size : Nat) (user : Bytes)
  | incoming (user file : Bytes) (size : Nat)
  | accepted (user : Bytes)
  | rejected (user : Bytes)
  | complete (file : Bytes) (done size : Nat)
  | cancelled (user : Bytes)
  | disconnected (user : Bytes)

namespace Announcement

/-- The text of an announcement for transfer `tid`, without the `[Server] ` prefix. -/
def text (tid : Nat) : Announcement → Bytes
  | waiting file size user =>
    filePrefix ++ (decimal tid ++ (utf8 ": '" ++ (file ++ (utf8 "' (" ++ (decimal size ++
      (utf8 " bytes) → " ++ (user ++ utf8 ". Waiting for acceptance...")))))))
  | incoming user file size =>
    incomingPrefix ++ (decimal tid ++ (utf8 " from " ++ (user ++ (utf8 ": '" ++ (file ++
      (utf8 "' (" ++ (decimal size ++ utf8 " bytes). Accept or reject?")))))))
  | accepted user =>
    filePrefix ++ (decimal tid ++ (utf8 " accepted by " ++ (user ++
      utf8 ". Start sending chunks.")))
  | rejected user =>
    filePrefix ++ (decimal tid ++ (utf8 " rejected by " ++ (user ++ utf8 ".")))
  | complete file done size =>
    filePrefix ++ (decimal tid ++ (utf8 " complete: '" ++ (file ++ (utf8 "' (" ++ (decimal done ++
      (utf8 "/" ++ (decimal size ++ utf8 " bytes transferred).")))))))
  | cancelled user =>
    filePrefix ++ (decimal tid ++ (utf8 " cancelled by " ++ (user ++ utf8 ".")))
  | disconnected user =>
    filePrefix ++ (decimal tid ++ (utf8 " cancelled: " ++ (user ++ utf8 " disconnected.")))

/-- The kind an announcement stands for. -/
def kind : Announcement → FileAnnKind
  | waiting _ _ _ => .sendPending
  | incoming _ _ _ => .recvPending
  | accepted _ => .accepted
  | rejected _ => .rejected
  | complete _ _ _ => .complete
  | cancelled _ => .cancelled
  | disconnected _ => .cancelledDisc

/-- The name in the text that a search for another kind's phrase can meet: the file name of a
    completed transfer, the user name of the others.  The waiting and the incoming text are
    recognised before any other phrase is searched for. -/
def name : Announcement → Bytes
  | complete file _ _ => file
  | waiting _ _ user | incoming user _ _ | accepted user | rejected user | cancelled user
  | disconnected user => user

/-- The phrases searched for before the announcement's own. -/
def earlier : Announcement → List Bytes
  | waiting _ _ _ | incoming _ _ _ => []
  | accepted _ => [waitingPhrase]
  | rejected _ => [waitingPhrase, acceptedPhrase]
  | complete _ _ _ => [waitingPhrase, acceptedPhrase, rejectedPhrase]
  | cancelled _ => [waitingPhrase, acceptedPhrase, rejectedPhrase, completePhrase]
  | disconnected _ =>
    [waitingPhrase, acceptedPhrase, rejectedPhrase, completePhrase, cancelledPhrase]

/-- The name holds none of the phrases that are searched for first. -/
def Harmless (a : Announcement) : Prop := ∀ phrase ∈ a.earlier, ¬ phrase <:+: a.name

end Announcement

/-! ### The two beginnings -/

/-- The prefix is stripped, and nothing else is. -/
theorem stripServerPrefix_append (text : Bytes) :
    stripServerPrefix (serverPrefix ++ text) = text := by
  rw [stripServerPrefix, if_pos (List.prefix_append _ _)]
  exact List.drop_left' rfl

theorem stripServerPrefix_eq {lit : Bytes} (h1 : ¬ serverPrefix <+: lit)
    (h2 : ¬ lit <+: serverPrefix) (rest : Bytes) :
    stripServerPrefix (lit ++ rest) = lit ++ rest := by
  rw [stripServerPrefix, if_neg]
  intro h
  rcases List.prefix_or_prefix_of_prefix h (List.prefix_append lit rest) with h | h
  · exact h1 h
  · exact h2 h

/-- With or without the prefix, a text that starts with another literal is parsed alike. -/
theorem stripServerPrefix_optional {lit : Bytes} (h1 : ¬ serverPrefix <+: lit)
    (h2 : ¬ lit <+: serverPrefix) (rest : Bytes) (withPrefix : Bool) :
    stripServerPrefix ((if withPrefix then serverPrefix else []) ++ (lit ++ rest))
      = lit ++ rest := by
  cases withPrefix with
  | true => exact stripServerPrefix_append _
  | false => exact stripServerPrefix_eq h1 h2 rest

theorem fileParseAnnouncement_incoming {tid : Nat} (htid : tid < 2 ^ 32) {b : UInt8}
    (hb : b = 58 ∨ b = 32) (rest : Bytes) (withPrefix : Bool) :
    fileParseAnnouncement ((if withPrefix then serverPrefix else []) ++
      (incomingPrefix ++ (decimal tid ++ b :: rest))) = some (.recvPending, tid) := by
  rw [fileParseAnnouncement, stripServerPrefix_optional (by decide) (by decide),
    if_pos (List.prefix_append _ _), List.drop_left' (by rfl), announcementTid_decimal htid hb]
  rfl

theorem fileParseAnnouncement_file {tid : Nat} (htid : tid < 2 ^ 32) {b : UInt8}
    (hb : b = 58 ∨ b = 32) (rest : Bytes) (withPrefix : Bool) :
    fileParseAnnouncement ((if withPrefix then serverPrefix else []) ++
      (filePrefix ++ (decimal tid ++ b :: rest))) =
      (announcementKind (filePrefix ++ (decimal tid ++ b :: rest))).map
        fun kind => (kind, tid) := by
  have hin : ¬ incomingPrefix <+: filePrefix ++ (decimal tid ++ b :: rest) := by
    intro h
    rcases List.prefix_or_prefix_of_prefix h (List.prefix_append filePrefix _) with h | h
    · exact absurd h (by decide)
    · exact absurd h (by decide)
  rw [fileParseAnnouncement, stripServerPrefix_optional (by decide) (by decide), if_neg hin,
    if_pos (List.prefix_append _ _), List.drop_left' (by rfl), announcementTid_decimal htid hb]
  rfl

/-! ### Where the searches can succeed -/

/-- Inside `File transfer #<tid><lit><name><tail>` the phrase can be found in the name only:
    it is neither in the fixed parts nor across one of their edges. -/
def OnlyInName (lit tail phrase : Bytes) : Prop :=
  phrase ≠ [] ∧ (∀ b ∈ phrase, ¬ IsDigit b) ∧
    (NoTail phrase filePrefix ∧ ¬ phrase <:+: filePrefix) ∧
    (NoTail phrase lit ∧ ¬ phrase <:+: lit) ∧ NoHead phrase tail ∧ NoTail phrase tail ∧
    ¬ phrase <:+: tail

instance (lit tail phrase : Bytes) : Decidable (OnlyInName lit tail phrase) :=
  -- over the bytes of the phrase, not over all bytes
  haveI : Decidable (∀ b ∈ phrase, ¬ IsDigit b) := List.decidableBAll _ phrase
  inferInstanceAs (Decidable (_ ∧ _ ∧ _ ∧ (NoTail phrase lit ∧ _) ∧ _ ∧ _ ∧ _))

/-- A phrase without digits is not found in a numeral. -/
private theorem infix_decimal_append {phrase : Bytes} (hne : phrase ≠ [])
    (hd : ∀ b ∈ phrase, ¬ IsDigit b) (n : Nat) (rest : Bytes) :
    phrase <:+: decimal n ++ rest ↔ phrase <:+: rest :=
  infix_disjoint_append hne (fun _ hb hmem => hd _ hmem (mem_decimal hb)) rest

/-- The search in a text with a name, up to what follows the name. -/
private theorem search_name {lit tail phrase : Bytes} (h : OnlyInName lit tail phrase)
    (tid : Nat) (name rest : Bytes) :
    phrase <:+: filePrefix ++ (decimal tid ++ (lit ++ (name ++ (tail ++ rest)))) ↔
      phrase <:+: name ∨ phrase <:+: rest := by
  obtain ⟨hne, hd, hfile, hlit, hhead, htail⟩ := h
  rw [infix_lit_append hfile.1 hfile.2, infix_decimal_append hne hd,
    infix_lit_append hlit.1 hlit.2, infix_append_lit hhead, infix_lit_append htail.1 htail.2]

/-- The search in a text that ends with the literal behind the name. -/
private theorem search_user {lit tail phrase : Bytes} (h : OnlyInName lit tail phrase)
    (tid : Nat) (user : Bytes) :
    phrase <:+: filePrefix ++ (decimal tid ++ (lit ++ (user ++ tail))) ↔ phrase <:+: user := by
  have hsearch := search_name h tid user []
  rw [List.append_nil] at hsearch
  rw [hsearch]
  exact or_iff_left fun hnil => h.1 (List.infix_nil.mp hnil)

/-- **What the earlier searches see.** A phrase that is searched for before the announcement's
    own is found in the text exactly when it is found in the name. -/
theorem Announcement.search_earlier (a : Announcement) (tid : Nat) :
    ∀ phrase ∈ a.earlier, (phrase <:+: a.text tid ↔ phrase <:+: a.name) := by
  cases a with
  | waiting file size user => simp [earlier]
  | incoming user file size => simp [earlier]
  | accepted user =>
    have h : ∀ phrase ∈ [waitingPhrase],
        OnlyInName (utf8 " accepted by ") (utf8 ". Start sending chunks.") phrase := by decide
    exact fun phrase hp => search_user (h phrase hp) tid user
  | rejected user =>
    have h : ∀ phrase ∈ [waitingPhrase, acceptedPhrase],
        OnlyInName (utf8 " rejected by ") (utf8 ".") phrase := by decide
    exact fun phrase hp => search_user (h phrase hp) tid user
  | complete file done size =>
    have h : ∀ phrase ∈ [waitingPhrase, acceptedPhrase, rejectedPhrase],
        OnlyInName (utf8 " complete: '") (utf8 "' (") phrase := by decide
    have htail : ∀ phrase ∈ [waitingPhrase, acceptedPhrase, rejectedPhrase],
        (NoTail phrase (utf8 "/") ∧ ¬ phrase <:+: utf8 "/") ∧
          ¬ phrase <:+: utf8 " bytes transferred)." := by decide
    -- behind the file name stand the two counts and their literals
    intro phrase hp
    have hne := (h phrase hp).1
    have hd := (h phrase hp).2.1
    refine (search_name (h phrase hp) tid file _).trans (or_iff_left ?_)
    rw [infix_decimal_append hne hd, infix_lit_append (htail phrase hp).1.1
      (htail phrase hp).1.2, infix_decimal_append hne hd]
    exact (htail phrase hp).2
  | cancelled user =>
    have h : ∀ phrase ∈ [waitingPhrase, acceptedPhrase, rejectedPhrase, completePhrase],
        OnlyInName (utf8 " cancelled by ") (utf8 ".") phrase := by decide
    exact fun phrase hp => search_user (h phrase hp) tid user
  | disconnected user =>
    have h : ∀ phrase ∈ [waitingPhrase, acceptedPhrase, rejectedPhrase, completePhrase,
        cancelledPhrase], OnlyInName (utf8 " cancelled: ") (utf8 " disconnected.") phrase := by
      decide
    exact fun phrase hp => search_user (h phrase hp) tid user

/-- The chain of searches as a table. -/
def announcementChain : List (Bytes × FileAnnKind) :=
  [(waitingPhrase, .sendPending), (acceptedPhrase, .accepted), (rejectedPhrase, .rejected),
    (completePhrase, .complete), (cancelledPhrase, .cancelled),
    (cancelledDiscPhrase, .cancelledDisc)]

theorem announcementKind_eq_find (p : Bytes) :
    announcementKind p =
      (announcementChain.find? fun e => decide (e.1 <:+: p)).map Prod.snd := by
  simp only [announcementKind, announcementChain, List.find?_cons, List.find?_nil]
  split_ifs <;> simp [*]

/-- No kind is decided by two phrases, so an entry wins exactly when no earlier one is found. -/
private theorem announcementKind_eq_iff {p own : Bytes} {kind : FileAnnKind}
    {front back : List (Bytes × FileAnnKind)}
    (hchain : announcementChain = front ++ (own, kind) :: back) (hown : own <:+: p) :
    announcementKind p = some kind ↔ ∀ phrase ∈ front.map Prod.fst, ¬ phrase <:+: p := by
  have hnodup : (announcementChain.map Prod.snd).Nodup := by decide
  have hother : ∀ e ∈ front, e.2 ≠ kind := by
    intro e he heq
    rw [hchain, List.map_append, List.map_cons, List.nodup_append] at hnodup
    exact hnodup.2.2 e.2 (List.mem_map_of_mem he) kind (by simp) heq
  rw [announcementKind_eq_find, hchain, List.find?_append]
  -- an earlier entry that is found decides for another kind
  cases hfind : front.find? fun e => decide (e.1 <:+: p) with
  | none =>
    rw [List.find?_eq_none] at hfind
    simpa [hown] using hfind
  | some e =>
    have hmem := List.mem_of_find?_eq_some hfind
    have hp : e.1 <:+: p := by simpa using List.find?_some hfind
    constructor
    · intro h
      exact absurd (by simpa using h) (hother e hmem)
    · intro h
      exact absurd hp (h e.1 (List.mem_map_of_mem hmem))

/-- A phrase that the literal behind the id holds is in the text. -/
private theorem own_phrase {lit phrase : Bytes} (h : phrase <:+: lit) (tid : Nat)
    (rest : Bytes) : phrase <:+: filePrefix ++ (decimal tid ++ (lit ++ rest)) :=
  (infix_of_segment h (decimal tid) rest).trans (List.suffix_append _ _).isInfix

/-- **The chain decides rightly exactly for harmless names.** -/
theorem announcementKind_text (a : Announcement) (ha : a.kind ≠ .recvPending) (tid : Nat) :
    announcementKind (a.text tid) = some a.kind ↔ a.Harmless := by
  have hsearch := a.search_earlier tid
  have key : ∀ (i : Nat) (own : Bytes),
      announcementChain =
        announcementChain.take i ++ (own, a.kind) :: announcementChain.drop (i + 1) →
      a.earlier = (announcementChain.take i).map Prod.fst → own <:+: a.text tid →
      (announcementKind (a.text tid) = some a.kind ↔ a.Harmless) := by
    intro i own hchain hfront hown
    rw [announcementKind_eq_iff hchain hown, ← hfront]
    exact forall₂_congr fun phrase hp => not_congr (hsearch phrase hp)
  cases a with
  | waiting file size user =>
    refine key 0 waitingPhrase rfl rfl ?_
    have hlit : waitingPhrase <:+: utf8 ". Waiting for acceptance..." := by decide
    unfold Announcement.text
    -- the phrase stands in the last of nine segments
    iterate 8 refine List.IsInfix.trans ?_ (List.suffix_append _ _).isInfix
    exact hlit
  | incoming user file size => exact absurd rfl ha
  | accepted user => exact key 1 acceptedPhrase rfl rfl (own_phrase (by decide) tid _)
  | rejected user => exact key 2 rejectedPhrase rfl rfl (own_phrase (by decide) tid _)
  | complete file done size => exact key 3 completePhrase rfl rfl (own_phrase (by decide) tid _)
  | cancelled user => exact key 4 cancelledPhrase rfl rfl (own_phrase (by decide) tid _)
  | disconnected user =>
    exact key 5 cancelledDiscPhrase rfl rfl (own_phrase (by decide) tid _)

/-- Whatever the name, the id is read correctly when a kind is found at all, and an incoming
    announcement is always recognised. -/
theorem fileParseAnnouncement_text (a : Announcement) (tid : UInt32) (withPrefix : Bool) :
    fileParseAnnouncement ((if withPrefix then serverPrefix else []) ++ a.text tid.toNat) =
      if a.kind = .recvPending then some (.recvPending, tid.toNat)
      else (announcementKind (a.text tid.toNat)).map fun kind => (kind, tid.toNat) := by
  have htid : tid.toNat < 2 ^ 32 := tid.toNat_lt
  have hcolon : (58 : UInt8) = 58 ∨ (58 : UInt8) = 32 := Or.inl rfl
  have hblank : (32 : UInt8) = 58 ∨ (32 : UInt8) = 32 := Or.inr rfl
  cases a with
  | incoming user file size => exact fileParseAnnouncement_incoming htid hblank _ withPrefix
  | waiting file size user => exact fileParseAnnouncement_file htid hcolon _ withPrefix
  | accepted user => exact fileParseAnnouncement_file htid hblank _ withPrefix
  | rejected user => exact fileParseAnnouncement_file htid hblank _ withPrefix
  | complete file done size => exact fileParseAnnouncement_file htid hblank _ withPrefix
  | cancelled user => exact fileParseAnnouncement_file htid hblank _ withPrefix
  | disconnected user => exact fileParseAnnouncement_file htid hblank _ withPrefix

/-- **Announcement classification.** A documented announcement is parsed to its own kind and
    its id exactly when its name holds none of the phrases that are searched for first. -/
theorem fileParseAnnouncement_text_iff (a : Announcement) (tid : UInt32) (withPrefix : Bool) :
    fileParseAnnouncement ((if withPrefix then serverPrefix else []) ++ a.text tid.toNat) =
      some (a.kind, tid.toNat) ↔ a.Harmless := by
  rw [fileParseAnnouncement_text]
  by_cases ha : a.kind = .recvPending
  · rw [if_pos ha, ha]
    cases a with
    | incoming user file size => simp [Announcement.Harmless, Announcement.earlier]
    | _ => exact absurd ha (by simp [Announcement.kind])
  · rw [if_neg ha, ← announcementKind_text a ha tid.toNat]
    cases announcementKind (a.text tid.toNat) <;> simp

/-- A completed transfer of a file called `accepted by` is announced as accepted. -/
theorem complete_taken_for_accepted :
    let a := Announcement.complete (utf8 "accepted by") 1 1
    fileParseAnnouncement (serverPrefix ++ a.text 5) = some (.accepted, 5) ∧
      fileParseAnnouncement (serverPrefix ++ a.text 5) ≠ some (a.kind, 5) := by
  decide +kernel

end TCPClient
