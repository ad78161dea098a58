import TCPClient.Utils
import TCPClient.Lib.Trace

namespace TCPClient

open Octets Trace

/-!
# `conn.c` — opening and closing the connection

`conn_connect` tries the addresses of a host one after the other, and `conn_close` ends what it
opened.  `SocketStep` is the protocol of the socket calls: one socket at most is open, and only an
open one is closed.  `connConnect_first` says which address wins, and that the sockets of all
others are closed.
-/

/-! ### The code -/

/-- What the kernel answers for one address: `socket` fails, `connect` fails, or the connection
    stands and `malloc` answers. -/
inductive AddressAnswer where
  | noSocket (errno : Nat)
  | unreachable (fd errno : Nat)
  | connected (fd : Nat) (mallocOk : Bool)
  deriving DecidableEq, Repr

inductive SocketCall where
  | socket (fd : Nat)
  | close (fd : Nat)
  deriving DecidableEq, Repr

def enomem : Nat := 12

/-- The variables of the loop: `c` (the descriptor in it), `last_errno`, and the calls so far. -/
structure Connecting where
  c : Option Nat
  lastErrno : Nat
  calls : List SocketCall
  deriving DecidableEq, Repr

/-- The loop of `conn_connect`; it ends at the first connection, even if `malloc` fails. -/
def connectLoop (s : Connecting) : List AddressAnswer → Connecting
  | [] => s
  | .noSocket errno :: rest => connectLoop { s with lastErrno := errno } rest
  | .unreachable fd errno :: rest =>
    connectLoop { s with lastErrno := errno, calls := s.calls ++ [.socket fd, .close fd] } rest
  | .connected fd true :: _ => { s with c := some fd, calls := s.calls ++ [.socket fd] }
  | .connected fd false :: _ =>
    { s with lastErrno := enomem, calls := s.calls ++ [.socket fd, .close fd] }

/-- What `getaddrinfo` answers: an error, or the addresses with what the kernel says to each. -/
abbrev Lookup := Except Nat (List AddressAnswer)

/-- The error texts of the C library. -/
structure ErrorTexts where
  gaiStrerror : Nat → Bytes
  strerror : Nat → Bytes

/-- The outcome of `conn_connect`: the connection, the text in `errbuf`, the socket calls. -/
structure Connected where
  conn : Option Nat
  errbuf : Bytes
  calls : List SocketCall
  deriving DecidableEq, Repr

/-- `snprintf(errbuf, errsz, "%s", text)`. -/
def errText (errsz : Nat) (text : Bytes) : Bytes := text.take (errsz - 1)

/-- `conn_connect`; `errbuf` is left alone when there is a connection. -/
def connConnect (texts : ErrorTexts) (lookup : Lookup) (errsz : Nat) (errbuf : Bytes) :
    Connected :=
  match lookup with
  | .error gai => ⟨none, errText errsz (texts.gaiStrerror gai), []⟩
  | .ok addresses =>
    let s := connectLoop ⟨none, 0, []⟩ addresses
    match s.c with
    | some fd => ⟨some fd, errbuf, s.calls⟩
    | none => ⟨none, errText errsz (texts.strerror s.lastErrno), s.calls⟩

/-- `conn_close`. -/
def connClose : Option Nat → List SocketCall
  | none => []
  | some fd => [.close fd]

/-! ### The protocol of the calls -/

/-- The socket that is open. -/
inductive SocketStep : Option Nat → SocketCall → Option Nat → Prop where
  | socket (fd : Nat) : SocketStep none (.socket fd) (some fd)
  | close (fd : Nat) : SocketStep (some fd) (.close fd) none

/-- A socket that is closed at once. -/
theorem run_tried (fd : Nat) : Run SocketStep none [.socket fd, .close fd] none :=
  .cons (.socket fd) (.single (.close fd))

theorem run_connClose (conn : Option Nat) : Run SocketStep conn (connClose conn) none := by
  cases conn with
  | none => exact .nil none
  | some fd => exact .single (.close fd)

/-! ### Which address wins -/

/-- The address does not answer. -/
def AddressAnswer.fails : AddressAnswer → Bool
  | .noSocket _ | .unreachable _ _ => true
  | .connected _ _ => false

/-- `errno` behind an address without a connection. -/
def AddressAnswer.errno : AddressAnswer → Nat
  | .noSocket errno | .unreachable _ errno => errno
  | .connected _ _ => enomem

/-- The calls for an address without a connection that stays. -/
def AddressAnswer.calls : AddressAnswer → List SocketCall
  | .noSocket _ => []
  | .unreachable fd _ | .connected fd _ => [.socket fd, .close fd]

/-- `last_errno` behind the addresses that were tried. -/
def lastErrno (before : Nat) (tried : List AddressAnswer) : Nat :=
  (tried.getLast?.map AddressAnswer.errno).getD before

theorem lastErrno_cons (before : Nat) (a : AddressAnswer) (tried : List AddressAnswer) :
    lastErrno before (a :: tried) = lastErrno a.errno tried := by
  cases tried with
  | nil => rfl
  | cons b tried => simp [lastErrno, List.getLast?_cons]

/-- The loop passes the addresses that fail. -/
theorem connectLoop_tried (s : Connecting) (tried rest : List AddressAnswer)
    (h : ∀ a ∈ tried, a.fails = true) :
    connectLoop s (tried ++ rest) = connectLoop
      { s with
        lastErrno := lastErrno s.lastErrno tried
        calls := s.calls ++ tried.flatMap AddressAnswer.calls } rest := by
  induction tried generalizing s with
  | nil => simp [lastErrno]
  | cons a tried ih =>
    have ih' := fun s => ih s (fun b hb => h b (List.mem_cons_of_mem a hb))
    cases a with
    | noSocket errno =>
      rw [List.cons_append, connectLoop, ih', lastErrno_cons]
      rfl
    | unreachable fd errno =>
      rw [List.cons_append, connectLoop, ih', lastErrno_cons]
      simp [AddressAnswer.errno, AddressAnswer.calls]
    | connected fd mallocOk => simp [AddressAnswer.fails] at h

theorem run_calls (tried : List AddressAnswer) :
    Run SocketStep none (tried.flatMap AddressAnswer.calls) none := by
  induction tried with
  | nil => exact .nil none
  | cons a tried ih =>
    rw [List.flatMap_cons]
    cases a with
    | noSocket errno => exact ih
    | unreachable fd errno => exact (run_tried fd).append ih
    | connected fd mallocOk => exact (run_tried fd).append ih

/-- The addresses that are tried: up to the first that answers. -/
def triedAddresses (answers : List AddressAnswer) : List AddressAnswer :=
  answers.takeWhile AddressAnswer.fails ++ (answers.dropWhile AddressAnswer.fails).take 1

theorem lastErrno_concat (before : Nat) (tried : List AddressAnswer) (a : AddressAnswer) :
    lastErrno before (tried ++ [a]) = a.errno := by
  simp [lastErrno]

/-- **What the loop does**: no address is left that it has not tried, or one answers. -/
theorem connectLoop_spec (answers : List AddressAnswer) :
    Run SocketStep none (connectLoop ⟨none, 0, []⟩ answers).calls
        (connectLoop ⟨none, 0, []⟩ answers).c ∧
      (∀ fd, (connectLoop ⟨none, 0, []⟩ answers).c = some fd ↔
        (triedAddresses answers).getLast? = some (.connected fd true)) ∧
      ((connectLoop ⟨none, 0, []⟩ answers).c = none →
        (connectLoop ⟨none, 0, []⟩ answers).lastErrno = lastErrno 0 (triedAddresses answers)) := by
  have hfront : ∀ a ∈ answers.takeWhile AddressAnswer.fails, a.fails = true :=
    fun a ha => List.mem_takeWhile_imp ha
  have hloop := connectLoop_tried ⟨none, 0, []⟩ _ (answers.dropWhile AddressAnswer.fails) hfront
  rw [List.takeWhile_append_dropWhile] at hloop
  rw [hloop, triedAddresses]
  have htried := run_calls (answers.takeWhile AddressAnswer.fails)
  cases hrest : answers.dropWhile AddressAnswer.fails with
  | nil =>
    refine ⟨by simpa [connectLoop] using htried, fun fd => ?_, fun _ => by simp [connectLoop]⟩
    refine iff_of_false (by simp [connectLoop]) fun hlast => ?_
    rw [List.take_nil, List.append_nil] at hlast
    exact absurd (hfront _ (List.mem_of_getLast? hlast)) (by simp [AddressAnswer.fails])
  | cons a rest =>
    have ha : a.fails = false := by
      have hhead := List.head?_dropWhile_not AddressAnswer.fails answers
      rw [hrest] at hhead
      exact hhead
    simp only [List.take_succ_cons, List.take_zero, List.getLast?_concat, lastErrno_concat]
    cases a with
    | noSocket errno => exact absurd ha (by simp [AddressAnswer.fails])
    | unreachable fd errno => exact absurd ha (by simp [AddressAnswer.fails])
    | connected fd mallocOk =>
      cases mallocOk with
      | true =>
        refine ⟨htried.append (.single (.socket fd)), fun fd' => ?_, ?_⟩
        · simp [connectLoop]
        · simp [connectLoop]
      | false =>
        refine ⟨htried.append (run_tried fd), fun fd' => ?_, fun _ => rfl⟩
        simp [connectLoop]

section Outcome

variable (texts : ErrorTexts) (answers : List AddressAnswer) (errsz : Nat) (errbuf : Bytes)

theorem connConnect_of_some {fd : Nat} (h : (connectLoop ⟨none, 0, []⟩ answers).c = some fd) :
    connConnect texts (.ok answers) errsz errbuf =
      ⟨some fd, errbuf, (connectLoop ⟨none, 0, []⟩ answers).calls⟩ := by
  simp [connConnect, h]

theorem connConnect_of_none (h : (connectLoop ⟨none, 0, []⟩ answers).c = none) :
    connConnect texts (.ok answers) errsz errbuf =
      ⟨none, errText errsz (texts.strerror (connectLoop ⟨none, 0, []⟩ answers).lastErrno),
        (connectLoop ⟨none, 0, []⟩ answers).calls⟩ := by
  simp [connConnect, h]

/-- **What `conn_connect` leaves open** is the socket it returns. -/
theorem run_connConnect (lookup : Lookup) :
    Run SocketStep none (connConnect texts lookup errsz errbuf).calls
      (connConnect texts lookup errsz errbuf).conn := by
  cases lookup with
  | error gai => exact .nil none
  | ok answers =>
    have hrun := (connectLoop_spec answers).1
    cases hc : (connectLoop ⟨none, 0, []⟩ answers).c with
    | none =>
      rw [hc] at hrun
      rw [connConnect_of_none texts answers errsz errbuf hc]
      exact hrun
    | some fd =>
      rw [hc] at hrun
      rw [connConnect_of_some texts answers errsz errbuf hc]
      exact hrun

/-- **Connecting.** The first address that answers wins, provided there is memory for the
    connection; the sockets of all others are closed, and each only once.  Without a connection
    the text is that of the last address that was tried. -/
theorem connConnect_first :
    Run SocketStep none (connConnect texts (.ok answers) errsz errbuf).calls
        (connConnect texts (.ok answers) errsz errbuf).conn ∧
      (∀ fd, (connConnect texts (.ok answers) errsz errbuf).conn = some fd ↔
        (triedAddresses answers).getLast? = some (.connected fd true)) ∧
      (connConnect texts (.ok answers) errsz errbuf).errbuf =
        if (connConnect texts (.ok answers) errsz errbuf).conn.isSome then errbuf
        else errText errsz (texts.strerror (lastErrno 0 (triedAddresses answers))) := by
  refine ⟨run_connConnect texts errsz errbuf (.ok answers), ?_⟩
  obtain ⟨-, hconn, herrno⟩ := connectLoop_spec answers
  cases hc : (connectLoop ⟨none, 0, []⟩ answers).c with
  | none =>
    rw [hc] at hconn
    rw [connConnect_of_none texts answers errsz errbuf hc, herrno hc]
    exact ⟨hconn, rfl⟩
  | some fd =>
    rw [hc] at hconn
    rw [connConnect_of_some texts answers errsz errbuf hc]
    exact ⟨hconn, rfl⟩

end Outcome

end TCPClient
