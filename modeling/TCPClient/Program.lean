import TCPClient.Connect
import TCPClient.Outside
import TCPClient.Downloads
import TCPClient.Finality
import TCPClient.Handshake

namespace TCPClient

open Octets Trace Folder

/-!
# `main.c` — the program, with `app_connect` and `app_destroy`

The port is read with `strtol`; `port_text_iff` says which arguments are ports.  `Process.main` is
the program from its arguments to its end: what it tells the shell, the calls on sockets, and the
world it leaves.
-/

/-! ### The port -/

/-- `isspace` in the C locale. -/
def IsSpace (b : UInt8) : Prop := b.toNat = 32 ∨ 9 ≤ b.toNat ∧ b.toNat ≤ 13

instance (b : UInt8) : Decidable (IsSpace b) := by
  unfold IsSpace; infer_instance

/-- The result of `strtol`: the number, what stands at `end`, and whether `errno` is `ERANGE`. -/
structure Strtol where
  value : Int
  rest : Bytes
  erange : Bool
  deriving DecidableEq, Repr

/-- A sign in front, and what stands behind it. -/
def strtolSign (body : Bytes) : Bool × Bytes :=
  if body.head? = some 45 then (true, body.tail)
  else if body.head? = some 43 then (false, body.tail)
  else (false, body)

/-- A number that does not fit a 64-bit `long` becomes the nearest that does. -/
def strtolRange (value : Int) (rest : Bytes) : Strtol :=
  if value < -2 ^ 63 then ⟨-2 ^ 63, rest, true⟩
  else if 2 ^ 63 ≤ value then ⟨2 ^ 63 - 1, rest, true⟩
  else ⟨value, rest, false⟩

/-- `strtol(nptr, &end, 10)`: without a digit, `end` is `nptr`. -/
def strtol (nptr : Bytes) : Strtol :=
  let signed := strtolSign (nptr.dropWhile fun b => decide (IsSpace b))
  let digits := signed.2.takeWhile fun b => decide (IsDigit b)
  let rest := signed.2.dropWhile fun b => decide (IsDigit b)
  let n : Int := decimalValue 0 digits
  if digits = [] then ⟨0, nptr, false⟩
  else strtolRange (if signed.1 then -n else n) rest

/-- The check of `argv[2]`. -/
def portOf (arg : Bytes) : Option Nat :=
  let r := strtol arg
  if r.erange ∨ r.rest = arg ∨ r.rest ≠ [] ∨ r.value < 1 ∨ 65535 < r.value then none
  else some r.value.toNat

/-- An argument that names a port: blanks, a plus sign or none, and the digits of the number. -/
def PortText (arg : Bytes) (port : Nat) : Prop :=
  ∃ blanks sign digits, arg = blanks ++ (sign ++ digits) ∧ (∀ b ∈ blanks, IsSpace b) ∧
    (sign = [] ∨ sign = utf8 "+") ∧ digits ≠ [] ∧ (∀ b ∈ digits, IsDigit b) ∧
      decimalValue 0 digits = port ∧ 1 ≤ port ∧ port ≤ 65535

theorem not_isSpace_of_isDigit {b : UInt8} (h : IsDigit b) : ¬ IsSpace b := by
  unfold IsDigit at h
  unfold IsSpace
  omega

/-- Digits behind blanks and a plus sign or none. -/
theorem strtolSign_digits {blanks sign digits : Bytes} (hblanks : ∀ b ∈ blanks, IsSpace b)
    (hsign : sign = [] ∨ sign = utf8 "+") (hne : digits ≠ []) (hdigits : ∀ b ∈ digits, IsDigit b) :
    strtolSign ((blanks ++ (sign ++ digits)).dropWhile fun b => decide (IsSpace b)) =
      (false, digits) := by
  have hskip : (blanks ++ (sign ++ digits)).dropWhile (fun b => decide (IsSpace b)) =
      (sign ++ digits).dropWhile fun b => decide (IsSpace b) :=
    List.dropWhile_append_of_pos (by simpa using hblanks)
  rw [hskip]
  obtain ⟨d, ds, rfl⟩ := List.exists_cons_of_ne_nil hne
  have hd : IsDigit d := hdigits d List.mem_cons_self
  rcases hsign with rfl | rfl
  · rw [List.nil_append, List.dropWhile_cons_of_neg (by simpa using not_isSpace_of_isDigit hd)]
    have hminus : d ≠ 45 := fun h => absurd (h ▸ hd) (by decide)
    have hplus : d ≠ 43 := fun h => absurd (h ▸ hd) (by decide)
    simp [strtolSign, hminus, hplus]
  · rfl

/-- The digits behind a sign that may be missing. -/
theorem strtolSign_split (body : Bytes) :
    (strtolSign body).1 = true ∨
      ∃ sign, (sign = [] ∨ sign = utf8 "+") ∧ body = sign ++ (strtolSign body).2 := by
  unfold strtolSign
  split_ifs with hminus hplus
  · exact .inl rfl
  · refine .inr ⟨utf8 "+", .inr rfl, ?_⟩
    obtain ⟨tail, rfl⟩ := List.head?_eq_some_iff.mp hplus
    rfl
  · exact .inr ⟨[], .inl rfl, rfl⟩

@[simp] theorem strtolRange_rest (value : Int) (rest : Bytes) :
    (strtolRange value rest).rest = rest := by
  unfold strtolRange
  split_ifs <;> rfl

/-- Between the bounds that are asked for, nothing is cut off. -/
theorem strtolRange_port (value : Int) (rest : Bytes) :
    ((strtolRange value rest).erange = false ∧ 1 ≤ (strtolRange value rest).value ∧
      (strtolRange value rest).value ≤ 65535) ↔ 1 ≤ value ∧ value ≤ 65535 := by
  unfold strtolRange
  split_ifs <;> simp <;> omega

theorem strtolRange_value {value : Int} (hlow : 1 ≤ value) (hhigh : value ≤ 65535) (rest : Bytes) :
    (strtolRange value rest).value = value := by
  unfold strtolRange
  rw [if_neg (by omega), if_neg (by omega)]

theorem portOf_eq_some {arg : Bytes} {port : Nat} :
    portOf arg = some port ↔ (strtol arg).rest ≠ arg ∧ (strtol arg).rest = [] ∧
      ((strtol arg).erange = false ∧ 1 ≤ (strtol arg).value ∧ (strtol arg).value ≤ 65535) ∧
        (strtol arg).value.toNat = port := by
  unfold portOf
  dsimp only
  split_ifs with hbad
  · refine iff_of_false (by simp) ?_
    rintro ⟨hnone, hrest, ⟨hrange, hlow, hhigh⟩, -⟩
    rcases hbad with h | h | h | h | h
    · exact absurd (hrange.symm.trans h) (by simp)
    · exact hnone h
    · exact h hrest
    · omega
    · omega
  · simp only [not_or, not_lt, ne_eq, not_not, Bool.not_eq_true] at hbad
    obtain ⟨hrange, hnone, hrest, hlow, hhigh⟩ := hbad
    constructor
    · intro h
      exact ⟨hnone, hrest, ⟨hrange, hlow, hhigh⟩, Option.some.inj h⟩
    · rintro ⟨-, -, -, h⟩
      rw [h]

/-- **The port.** The program accepts exactly the arguments that are a number from 1 to 65535 in
    decimal digits, behind blanks and a plus sign or none; nothing may stand behind it. -/
theorem port_text_iff (arg : Bytes) (port : Nat) : portOf arg = some port ↔ PortText arg port := by
  rw [portOf_eq_some]
  constructor
  · rintro ⟨hnone, hrest, hrange, hport⟩
    unfold strtol at hnone hrest hrange hport
    dsimp only at hnone hrest hrange hport
    split_ifs at hnone hrest hrange hport with hempty hminus
    · exact absurd rfl hnone
    · -- a number behind a minus sign is not positive
      have hlow := ((strtolRange_port _ _).mp hrange).1
      omega
    · have hall := hrange
      rw [strtolRange_port] at hall
      rw [strtolRange_value hall.1 hall.2, Int.toNat_natCast] at hport
      rw [strtolRange_rest, List.dropWhile_eq_nil_iff] at hrest
      simp only [decide_eq_true_eq] at hrest
      rw [List.takeWhile_eq_self_iff.mpr (by simpa using hrest)] at hempty hport hall
      rcases strtolSign_split (arg.dropWhile fun b => decide (IsSpace b)) with h | ⟨sign, hsign, h⟩
      · exact absurd h hminus
      · refine ⟨arg.takeWhile fun b => decide (IsSpace b), sign, _, ?_, fun b hb => ?_, hsign,
          hempty, hrest, hport, by omega, by omega⟩
        · rw [← h, List.takeWhile_append_dropWhile]
        · simpa using List.mem_takeWhile_imp hb
  · rintro ⟨blanks, sign, digits, rfl, hblanks, hsign, hne, hdigits, rfl, hlow, hhigh⟩
    have hall : ∀ b ∈ digits, decide (IsDigit b) = true := by simpa using hdigits
    have hstrtol : strtol (blanks ++ (sign ++ digits)) =
        strtolRange (decimalValue 0 digits) [] := by
      unfold strtol
      rw [strtolSign_digits hblanks hsign hne hdigits]
      dsimp only
      rw [List.takeWhile_eq_self_iff.mpr hall, if_neg hne, List.dropWhile_eq_nil_iff.mpr hall]
      rfl
    rw [hstrtol, strtolRange_rest, strtolRange_port,
      strtolRange_value (by omega) (by omega), Int.toNat_natCast]
    refine ⟨?_, rfl, by omega, rfl⟩
    simp [hne]

/-! ### The program -/

/-- What a process gets from outside: its arguments, what `getaddrinfo` and the kernel answer for a
    host and a port, whether there is memory, all that the client meets (`env`), and the answers to
    the last `file_reset_all`. -/
structure Process where
  prog : Bytes
  args : List Bytes
  texts : ErrorTexts
  lookup : Bytes → Nat → Lookup
  callocOk : Bool
  mallocOk : Bool
  env : Surroundings
  closeIo : Slot → Io

/-- How a process ends. -/
structure Exit where
  success : Bool
  stderr : Bytes
  sockets : List SocketCall
  world : World

instance {σ : Type} (s : Session σ) : Decidable s.Over := by
  unfold Session.Over; infer_instance

namespace World

/-- There is nothing to reset. -/
theorem fileResetAll_of_idle {w : World} {disk : Bytes → Option Bytes}
    (h : w.tasks = (World.init disk).tasks) (io : Slot → Io) : w.fileResetAll io = w := by
  have hidle (i : Slot) : resetRecv io w i = w := by
    rw [resetRecv, recv, h]
    rfl
  have hfold (slots : List Slot) : slots.foldl (resetRecv io) w = w := by
    induction slots with
    | nil => rfl
    | cons i slots ih => rw [List.foldl_cons, hidle, ih]
  have hbusy : w.send.busy = false := by
    rw [send, h]
    rfl
  rw [fileResetAll, if_neg (by simp [hbusy])]
  exact hfold _

end World

namespace Process

variable (p : Process)

/-- A failure before there is a client. -/
def failure (stderr : Bytes) (sockets : List SocketCall) : Exit :=
  ⟨false, stderr, sockets, World.init p.env.disk⟩

/-- `app_connect`, `app_run` and `app_destroy`; `none` while the client is running, and from a frame
    on that was read past the bytes that were received. -/
def appLife (host : Bytes) (port : Nat) (events : List ConsoleEvent) : Option Exit :=
  let c := connConnect p.texts (p.lookup host port) 256 []
  match c.conn with
  | none =>
    some (p.failure (utf8 "连接失败(" ++ host ++ utf8 ":" ++ decimal port ++ utf8 "): " ++ c.errbuf ++
      utf8 "\n") c.calls)
  | some fd =>
    let closed := c.calls ++ connClose (some fd)
    if ¬ p.callocOk ∨ ¬ p.mallocOk then some (p.failure [] closed)
    else if ¬ (p.env.session events).Over then none
    else (p.env.world events).map fun w =>
      -- `app_run` always returns 0
      ⟨p.env.loggedIn events, [], closed, w.fileResetAll p.closeIo⟩

/-- `main`. -/
def main (events : List ConsoleEvent) : Option Exit :=
  match p.args with
  | [host] => p.appLife host 18080 events
  | [host, arg] =>
    match portOf arg with
    | none =>
      some (p.failure (utf8 "无效端口: " ++ arg ++ utf8 "（1-65535）\n") [])
    | some port => p.appLife host port events
  | _ => some (p.failure (utf8 "用法: " ++ p.prog ++ utf8 " <host> [port]\n") [])

/-! ### The end of the program -/

variable {p : Process}

/-- **How a process ends**: before there is a client, or with the end of its session. -/
theorem appLife_cases {host : Bytes} {port : Nat} {events : List ConsoleEvent} {e : Exit}
    (h : p.appLife host port events = some e) :
    Run SocketStep none e.sockets none ∧
      ((e.success = false ∧ e.world = World.init p.env.disk) ∨
        e.success = p.env.loggedIn events ∧ (p.env.session events).Over ∧
          ∃ w ∈ p.env.world events, e.world = w.fileResetAll p.closeIo) := by
  have hrun := run_connConnect p.texts 256 [] (p.lookup host port)
  unfold appLife at h
  dsimp only at h
  cases hconn : (connConnect p.texts (p.lookup host port) 256 []).conn with
  | none =>
    rw [hconn] at h hrun
    obtain rfl := Option.some.inj h
    exact ⟨hrun, .inl ⟨rfl, rfl⟩⟩
  | some fd =>
    rw [hconn] at h hrun
    have hclosed := hrun.append (run_connClose (some fd))
    dsimp only at h
    split_ifs at h with hmemory hover
    · obtain rfl := Option.some.inj h
      exact ⟨hclosed, .inl ⟨rfl, rfl⟩⟩
    · obtain ⟨w, hw, rfl⟩ := Option.map_eq_some_iff.mp h
      exact ⟨hclosed, .inr ⟨rfl, hover, w, hw, rfl⟩⟩

theorem main_cases {events : List ConsoleEvent} {e : Exit} (h : p.main events = some e) :
    Run SocketStep none e.sockets none ∧
      ((e.success = false ∧ e.world = World.init p.env.disk) ∨
        e.success = p.env.loggedIn events ∧ (p.env.session events).Over ∧
          ∃ w ∈ p.env.world events, e.world = w.fileResetAll p.closeIo) := by
  have hfailure {stderr : Bytes} (h : some (p.failure stderr []) = some e) :
      Run SocketStep none e.sockets none ∧ e.success = false ∧
        e.world = World.init p.env.disk := by
    obtain rfl := Option.some.inj h
    exact ⟨.nil none, rfl, rfl⟩
  unfold main at h
  split at h
  · exact appLife_cases h
  · split at h
    · exact ⟨(hfailure h).1, .inl (hfailure h).2⟩
    · exact appLife_cases h
  · exact ⟨(hfailure h).1, .inl (hfailure h).2⟩

/-- **The program gives everything back.** However it ends, as long as no frame is read past the
    bytes that were received: every socket and every file it opened is closed, once and after its
    opening, and all memory is released; no transfer is left; and no file outside the download
    folder has changed. -/
theorem main_releases {events : List ConsoleEvent} {e : Exit} (h : p.main events = some e) :
    Run SocketStep none e.sockets none ∧
      Run OutsideStep .nothing e.world.log .nothing ∧
      (e.world.send.busy = false ∧ ∀ i, (e.world.recv i).busy = false) ∧
      ∀ path, ¬ InDownloads path → e.world.disk path = p.env.disk path := by
  obtain ⟨hsockets, ⟨-, hworld⟩ | ⟨-, -, w, hw, hworld⟩⟩ := main_cases h
  · rw [hworld]
    exact ⟨hsockets, .nil _, ⟨rfl, fun _ => rfl⟩, fun _ _ => rfl⟩
  · have hkeeps := keepsOutside_of_console hw
    rw [hworld]
    exact ⟨hsockets, hkeeps.closed p.closeIo,
      ⟨w.idle_send_fileResetAll p.closeIo, w.idle_fileResetAll p.closeIo⟩,
      (hkeeps.step (.reset p.closeIo)).disk⟩

/-- **What the shell is told.** As long as no frame is read past the bytes that were received: the
    program succeeds only if the Welcome was shown as the answer to names that were sent; if it
    fails, it has sent nothing but names, has touched no file and has had no transfer. -/
theorem main_tells_login {events : List ConsoleEvent} {e : Exit} (h : p.main events = some e) :
    (e.success = true → e.world.LoggedIn) ∧
      (e.success = false → ∃ stage, stage ≠ .welcomed ∧ e.world.LoginOnly p.env.disk stage) := by
  obtain ⟨-, ⟨hsuccess, hworld⟩ | ⟨hsuccess, hover, w, hw, hworld⟩⟩ := main_cases h
  · rw [hsuccess, hworld]
    exact ⟨fun hfalse => absurd hfalse (by simp), fun _ => ⟨.asking, by simp, .nil _, rfl, rfl⟩⟩
  · have hlogin := (stands_login p.env events).state w hw
    rw [hsuccess, hworld]
    cases hreached : p.env.loggedIn events with
    | true =>
      rw [hreached] at hlogin
      have hreset : World.Does (fun _ => True) w (w.fileResetAll p.closeIo) :=
        .file (.reset p.closeIo) fun _ => trivial
      exact ⟨fun _ => World.LoggedIn.does hlogin hreset, fun hfalse => absurd hfalse (by simp)⟩
    | false =>
      refine ⟨fun hfalse => absurd hfalse (by simp), fun _ => ?_⟩
      rw [hreached] at hlogin
      obtain hstopped | ⟨hrunning, -⟩ := hover
      · rw [hstopped] at hlogin
        obtain ⟨stage, hstage, honly⟩ := hlogin
        rw [World.fileResetAll_of_idle honly.tasks]
        exact ⟨stage, hstage, honly⟩
      · have hloop := Session.reachesLoop_of_running _ _ _ hrunning
        exact absurd (hreached.symm.trans hloop) (by simp)

/-- The second address of the host answers, and eve is interrupted while she receives a file. -/
def evesProcess : Process where
  prog := utf8 "tcp_client"
  args := [utf8 "localhost"]
  texts := ⟨fun _ => [], fun _ => []⟩
  lookup _ _ := .ok [.unreachable 3 111, .connected 3 true]
  callocOk := true
  mallocOk := true
  env := eve
  closeIo _ := Io.ok

def interruption : List ConsoleEvent := acceptance ++ [.poll false (.ready none none)]

theorem exists_interruption :
    ∃ e, evesProcess.main interruption = some e ∧ e.success = true ∧
      e.sockets = [.socket 3, .close 3, .socket 3, .close 3] ∧
        .remove (utf8 "downloads/b") true ∈ e.world.log := by
  have hmain : ((evesProcess.main interruption).map fun e =>
      (e.success, e.sockets, decide (.remove (utf8 "downloads/b") true ∈ e.world.log))) =
        some (true, [.socket 3, .close 3, .socket 3, .close 3], true) := by decide +kernel
  obtain ⟨e, he, heq⟩ := Option.map_eq_some_iff.mp hmain
  obtain ⟨hsuccess, hrest⟩ := Prod.mk.inj heq
  obtain ⟨hsockets, hremove⟩ := Prod.mk.inj hrest
  exact ⟨e, he, hsuccess, hsockets, of_decide_eq_true hremove⟩

theorem main_releases_interruption :
    ∃ e, evesProcess.main interruption = some e ∧ e.success = true ∧
      e.sockets = [.socket 3, .close 3, .socket 3, .close 3] ∧
      Run SocketStep none e.sockets none ∧
      Run OutsideStep .nothing e.world.log .nothing ∧
      (e.world.send.busy = false ∧ ∀ i, (e.world.recv i).busy = false) ∧
      ∀ path, ¬ InDownloads path → e.world.disk path = none := by
  obtain ⟨e, he, hsuccess, hsockets, -⟩ := exists_interruption
  exact ⟨e, he, hsuccess, hsockets, main_releases he⟩

theorem main_tells_login_interruption :
    ∃ e, evesProcess.main interruption = some e ∧ e.success = true ∧
      (e.success = true → e.world.LoggedIn) ∧
      (e.success = false →
        ∃ stage, stage ≠ .welcomed ∧ e.world.LoginOnly (fun _ => none) stage) := by
  obtain ⟨e, he, hsuccess, -⟩ := exists_interruption
  exact ⟨e, he, hsuccess, main_tells_login he⟩

/-- Calls of the file module that end with a reset leave no file open. -/
theorem openFile_reset (disk : Bytes → Option Bytes) (calls : List FileEvent) (io : Slot → Io) :
    (fileRun (World.init disk) (calls ++ [.reset io])).openFile = none := by
  have hreach := (Reachable.init disk).run (calls ++ [.reset io])
  have hreset : fileRun (World.init disk) (calls ++ [.reset io]) =
      (fileRun (World.init disk) calls).fileResetAll io := by
    rw [fileRun, List.foldl_append]
    rfl
  refine World.openFile_eq_none fun i => ?_
  by_contra hopen
  obtain ⟨path, hpath⟩ := Option.ne_none_iff_exists'.mp hopen
  obtain ⟨fh, hfp, -⟩ := World.openPath_eq_some.mp hpath
  have hbusy := hreach.coherent.activeBusy i fh hfp
  rw [hreset, World.idle_fileResetAll] at hbusy
  exact absurd hbusy (by simp)

/-- **What is left behind.** If files can be removed and no frame is read past the bytes that were
    received, then however the program ends, the download folder holds what it held at the start
    and the files of the transfers that passed the completion check, each with its content, and
    nothing else: no partial file stays. -/
theorem main_leaves_kept {events : List ConsoleEvent} {e : Exit} (h : p.main events = some e)
    (henv : p.env.AllIo fun io => io.removeOk = true)
    (hevents : ∀ e ∈ events, e.AllIo fun io => io.removeOk = true)
    (hclose : ∀ i, (p.closeIo i).removeOk = true) :
    ∃ calls : List FileEvent, SameFiles (fileRun (World.init p.env.disk) calls) e.world ∧
      Accounts p.env.disk (keptFiles (World.init p.env.disk) calls) none e.world.disk := by
  have hstart : Accounts p.env.disk [] (World.init p.env.disk).openFile p.env.disk := by
    rw [World.openFile_eq_none fun i => by simp [World.openPath, World.init, RecvTask.zero]]
    exact .nil _
  obtain ⟨-, ⟨-, hworld⟩ | ⟨-, -, w, hw, hworld⟩⟩ := main_cases h
  · rw [hworld]
    exact ⟨[], .refl _, .nil _⟩
  · rw [hworld]
    obtain ⟨calls, hcalls, hsame⟩ := SameFiles.of_does (does_console henv hevents hw)
    have hsame' : SameFiles (fileRun (World.init p.env.disk) (calls ++ [.reset p.closeIo]))
        (w.fileResetAll p.closeIo) := by
      rw [fileRun, List.foldl_append]
      exact hsame.step (.reset p.closeIo)
    have hremove (e : FileEvent) (he : e ∈ calls ++ [.reset p.closeIo]) : e.RemovesWork := by
      rcases List.mem_append.mp he with he | he
      · exact removesWork_of_allIo (hcalls e he)
      · rw [List.mem_singleton.mp he]
        exact hclose
    have haccounts := accounts_run (.init p.env.disk) hstart _ hremove
    rw [openFile_reset, hsame'.disk, List.nil_append] at haccounts
    exact ⟨_, hsame', haccounts⟩

theorem main_leaves_kept_interruption :
    ∃ e, evesProcess.main interruption = some e ∧
      .remove (utf8 "downloads/b") true ∈ e.world.log ∧
      ∃ calls : List FileEvent, SameFiles (fileRun (World.init fun _ => none) calls) e.world ∧
        Accounts (fun _ => none) (keptFiles (World.init fun _ => none) calls) none
          e.world.disk := by
  obtain ⟨e, he, -, -, hremove⟩ := exists_interruption
  refine ⟨e, he, hremove, main_leaves_kept he ⟨fun _ => rfl, fun _ => rfl⟩ ?_ fun _ => rfl⟩
  simp [interruption, acceptance, ConsoleEvent.AllIo, lineIo, Io.ok]

end Process

end TCPClient
