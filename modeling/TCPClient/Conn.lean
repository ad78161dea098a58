import TCPClient.Protocol
import Mathlib.Data.List.TakeDrop

namespace TCPClient

/-!
# `conn.c` — sending all of a frame

`conn_send_all` calls `send` until the whole frame is handed over: a call may take a part of
what it is offered, may be interrupted by a signal, or may fail.  `SendLoop` is the state of the
loop between two calls, `SendLoop.step` one call with its answer, `connSendAllRun` the loop
against a sequence of answers; a sequence may end before the loop does, so that every statement
about runs is one about every moment.
-/

/-- What `send` answers. -/
inductive SendAnswer where
  /-- the kernel takes the first `n` of the bytes it is offered -/
  | sent (n : Nat)
  /-- -1 with `EINTR` -/
  | interrupted
  /-- -1 with another error -/
  | failed
  deriving DecidableEq, Repr

/-- The state of `conn_send_all`: its variable `sent`, what the kernel has taken so far, and its
    answer once it has returned. -/
structure SendLoop where
  sent : Nat
  taken : Bytes
  ret : Option Int
  deriving DecidableEq, Repr

namespace SendLoop

/-- The loop condition after `sent` bytes: the answer 0 is due when nothing is left. -/
def test (data : Bytes) (sent : Nat) : Option Int := if sent < data.length then none else some 0

theorem test_ne_failed (data : Bytes) (sent : Nat) : test data sent ≠ some (-1) := by
  unfold test
  split_ifs <;> simp

/-- `conn_send_all` at its first loop condition. -/
def enter (data : Bytes) : SendLoop := ⟨0, [], test data 0⟩

/-- One round of the loop: `send` is offered `data + sent` and answers. -/
def step (data : Bytes) (s : SendLoop) (answer : SendAnswer) : SendLoop :=
  if s.ret ≠ none then s
  else
    match answer with
    | .interrupted => s
    | .failed => { s with ret := some (-1) }
    | .sent n =>
      ⟨s.sent + n, s.taken ++ (data.drop s.sent).take n, test data (s.sent + n)⟩

/-- The answers `send` can give when it is offered `left` bytes. -/
def Admits (left : Nat) : SendAnswer → Prop
  | .sent n => 1 ≤ n ∧ n ≤ left
  | _ => True

instance (left : Nat) : (answer : SendAnswer) → Decidable (Admits left answer)
  | .sent n => inferInstanceAs (Decidable (1 ≤ n ∧ n ≤ left))
  | .interrupted => .isTrue trivial
  | .failed => .isTrue trivial

/-- The calls of a run are answered as `send` answers. -/
def AdmitsAll (data : Bytes) : SendLoop → List SendAnswer → Prop
  | _, [] => True
  | s, answer :: answers =>
    (s.ret = none → Admits (data.length - s.sent) answer) ∧
      AdmitsAll data (s.step data answer) answers

instance decidableAdmitsAll (data : Bytes) :
    (s : SendLoop) → (answers : List SendAnswer) → Decidable (AdmitsAll data s answers)
  | _, [] => .isTrue trivial
  | s, answer :: answers =>
    have := decidableAdmitsAll data (s.step data answer) answers
    inferInstanceAs (Decidable ((s.ret = none → Admits (data.length - s.sent) answer) ∧
      AdmitsAll data (s.step data answer) answers))

end SendLoop

/-- `conn_send_all` against the answers of `send`, as far as they go. -/
def connSendAllRun (data : Bytes) (answers : List SendAnswer) : SendLoop :=
  answers.foldl (SendLoop.step data) (SendLoop.enter data)

/-- The answers are possible ones for this frame. -/
def SendAnswers (data : Bytes) (answers : List SendAnswer) : Prop :=
  SendLoop.AdmitsAll data (SendLoop.enter data) answers

instance (data : Bytes) (answers : List SendAnswer) : Decidable (SendAnswers data answers) :=
  SendLoop.decidableAdmitsAll data (SendLoop.enter data) answers

namespace SendLoop

variable {data : Bytes} {s : SendLoop} {answer : SendAnswer} {answers : List SendAnswer}

/-- **The invariant**: the kernel has taken the first `sent` bytes, and the answer goes with
    what is left. -/
structure Inv (data : Bytes) (s : SendLoop) : Prop where
  sent_le : s.sent ≤ data.length
  taken : s.taken = data.take s.sent
  ret : s.ret = test data s.sent ∨ s.ret = some (-1) ∧ s.sent < data.length

theorem inv_enter (data : Bytes) : (enter data).Inv data :=
  ⟨Nat.zero_le _, List.take_zero.symm, Or.inl rfl⟩

theorem Inv.sent_lt (h : s.Inv data) (hret : s.ret = none) : s.sent < data.length := by
  rcases h.ret with htest | ⟨hfail, -⟩
  · rw [hret, test] at htest
    by_contra hge
    rw [if_neg hge] at htest
    exact absurd htest (by simp)
  · rw [hret] at hfail
    exact absurd hfail (by simp)

/-! What one call does. -/

theorem step_of_ret (hret : s.ret ≠ none) : s.step data answer = s := if_pos hret

theorem step_interrupted (hret : s.ret = none) : s.step data .interrupted = s :=
  if_neg (not_not_intro hret)

theorem step_failed (hret : s.ret = none) : s.step data .failed = { s with ret := some (-1) } :=
  if_neg (not_not_intro hret)

theorem step_sent (hret : s.ret = none) (n : Nat) :
    s.step data (.sent n) =
      ⟨s.sent + n, s.taken ++ (data.drop s.sent).take n, test data (s.sent + n)⟩ :=
  if_neg (not_not_intro hret)

/-- **Step lemma.** One call keeps the invariant. -/
theorem Inv.step (h : s.Inv data) (hadm : s.ret = none → Admits (data.length - s.sent) answer) :
    (s.step data answer).Inv data := by
  by_cases hret : s.ret = none
  swap
  · rwa [step_of_ret hret]
  have hlt := h.sent_lt hret
  cases answer with
  | interrupted => rwa [step_interrupted hret]
  | failed =>
    rw [step_failed hret]
    exact ⟨h.sent_le, h.taken, Or.inr ⟨rfl, hlt⟩⟩
  | sent n =>
    obtain ⟨-, hn⟩ := hadm hret
    rw [step_sent hret]
    refine ⟨?_, ?_, Or.inl rfl⟩
    · show s.sent + n ≤ data.length
      omega
    · -- the part that was taken continues the prefix
      show s.taken ++ (data.drop s.sent).take n = data.take (s.sent + n)
      rw [h.taken, List.take_add]

/-- **Run lemma.** -/
theorem Inv.run (h : s.Inv data) (hadm : AdmitsAll data s answers) :
    (answers.foldl (SendLoop.step data) s).Inv data := by
  induction answers generalizing s with
  | nil => exact h
  | cons answer answers ih => exact ih (h.step hadm.1) hadm.2

theorem admitsAll_append {front back : List SendAnswer} (h : AdmitsAll data s (front ++ back)) :
    AdmitsAll data s front := by
  induction front generalizing s with
  | nil => trivial
  | cons answer front ih => exact ⟨h.1, ih h.2⟩

/-- Once it has returned there are no more calls. -/
theorem run_of_ret (hret : s.ret ≠ none) : answers.foldl (SendLoop.step data) s = s := by
  induction answers with
  | nil => rfl
  | cons answer answers ih => rw [List.foldl_cons, step_of_ret hret, ih]

theorem Inv.taken_eq_iff (h : s.Inv data) : s.taken = data ↔ s.sent = data.length := by
  rw [h.taken, List.take_eq_self_iff]
  have := h.sent_le
  omega

theorem Inv.ret_zero_iff (h : s.Inv data) : s.ret = some 0 ↔ s.taken = data := by
  rw [h.taken_eq_iff]
  have hle := h.sent_le
  rcases h.ret with hret | ⟨hret, hlt⟩
  · rw [hret, test]
    split_ifs with hlt
    · simp only [false_iff]
      omega
    · simp only [true_iff]
      omega
  · rw [hret]
    simp only [Option.some.injEq]
    omega

/-- A loop that has not failed goes on exactly as long as something is left. -/
theorem Inv.ret_none_iff (h : s.Inv data) (hs : s.ret ≠ some (-1)) :
    s.ret = none ↔ s.taken ≠ data := by
  rw [← not_iff_not, not_not, ← h.ret_zero_iff]
  constructor
  · intro hret
    rcases h.ret with htest | ⟨hfail, -⟩
    · rw [test] at htest
      split_ifs at htest
      · exact absurd htest hret
      · exact htest
    · exact absurd hfail hs
  · intro hzero hnone
    rw [hzero] at hnone
    exact absurd hnone (by simp)

/-- An answer that is no failure stands in front of the first failure. -/
theorem first_failed_cons {P : List SendAnswer → Prop} (hne : answer ≠ .failed) :
    (∃ front back, answer :: answers = front ++ .failed :: back ∧ .failed ∉ front ∧ P front) ↔
      ∃ front back, answers = front ++ .failed :: back ∧ .failed ∉ front ∧
        P (answer :: front) := by
  constructor
  · rintro ⟨front, back, heq, hnot, hP⟩
    cases front with
    | nil => exact absurd (List.cons.inj heq).1 hne
    | cons first front =>
      obtain ⟨rfl, rfl⟩ := List.cons.inj heq
      exact ⟨front, back, rfl, fun h => hnot (List.mem_cons_of_mem _ h), hP⟩
  · rintro ⟨front, back, rfl, hnot, hP⟩
    exact ⟨answer :: front, back, rfl, by simp [hnot, Ne.symm hne], hP⟩

/-- The answer -1 goes back to a call that failed while the loop was still going. -/
theorem ret_failed_iff (hs : s.ret ≠ some (-1)) :
    (answers.foldl (SendLoop.step data) s).ret = some (-1) ↔
      ∃ front back, answers = front ++ .failed :: back ∧ .failed ∉ front ∧
        (front.foldl (SendLoop.step data) s).ret = none := by
  induction answers generalizing s with
  | nil => simp [hs]
  | cons answer answers ih =>
    by_cases hret : s.ret = none
    swap
    · simp only [run_of_ret hret]
      exact iff_of_false hs fun ⟨_, _, _, _, hnone⟩ => hret hnone
    rw [List.foldl_cons]
    cases answer with
    | interrupted =>
      rw [first_failed_cons (by simp)]
      simp only [List.foldl_cons, step_interrupted hret]
      exact ih hs
    | failed =>
      have hfail : (s.step data .failed).ret = some (-1) := by rw [step_failed hret]
      rw [run_of_ret (by simp [hfail])]
      exact iff_of_true hfail ⟨[], answers, rfl, by simp, hret⟩
    | sent n =>
      rw [first_failed_cons (by simp)]
      simp only [List.foldl_cons]
      exact ih (by rw [step_sent hret]; exact test_ne_failed _ _)

/-- As long as the loop goes on, every call that was not interrupted has handed over a byte. -/
theorem Inv.count_le (h : s.Inv data) (hadm : AdmitsAll data s answers)
    (hnone : (answers.foldl (SendLoop.step data) s).ret = none) :
    s.sent + answers.countP (· ≠ .interrupted) ≤ (answers.foldl (SendLoop.step data) s).sent := by
  induction answers generalizing s with
  | nil => exact Nat.le_refl _
  | cons answer answers ih =>
    have hret : s.ret = none := by
      by_contra hne
      rw [run_of_ret hne] at hnone
      exact hne hnone
    have hrest := ih (h.step hadm.1) hadm.2 hnone
    rw [List.foldl_cons]
    cases answer with
    | interrupted =>
      rw [step_interrupted hret] at hrest ⊢
      rwa [List.countP_cons_of_neg (by simp)]
    | failed =>
      -- a failed call ends the loop
      rw [List.foldl_cons, step_failed hret, run_of_ret (by simp)] at hnone
      exact absurd hnone (by simp)
    | sent n =>
      obtain ⟨hpos, -⟩ := hadm.1 hret
      have hsent : (s.step data (.sent n)).sent = s.sent + n := by rw [step_sent hret]
      rw [hsent] at hrest
      rw [List.countP_cons_of_pos (by simp)]
      omega

end SendLoop

theorem inv_connSendAllRun {data : Bytes} {answers : List SendAnswer}
    (h : SendAnswers data answers) : (connSendAllRun data answers).Inv data :=
  (SendLoop.inv_enter data).run h

/-- **The full-send loop.** At every moment the kernel has taken the bytes in front of the running
    offset, each of them once; the answer is 0 exactly when it has taken all, -1 exactly when a
    call failed before, and it is due after as many uninterrupted calls as there are bytes. -/
theorem connSendAll_full {data : Bytes} {answers : List SendAnswer}
    (h : SendAnswers data answers) :
    (∀ front, front <+: answers →
      (connSendAllRun data front).taken <+: data ∧
      (connSendAllRun data front).taken = data.take (connSendAllRun data front).sent ∧
      (connSendAllRun data front).sent ≤ data.length) ∧
    ((connSendAllRun data answers).ret = some 0 ↔ (connSendAllRun data answers).taken = data) ∧
    ((connSendAllRun data answers).ret = some (-1) ↔
      ∃ front back, answers = front ++ .failed :: back ∧ .failed ∉ front ∧
        (connSendAllRun data front).taken ≠ data) ∧
    (data.length ≤ answers.countP (· ≠ .interrupted) →
      (connSendAllRun data answers).ret ≠ none) := by
  have hinv : ∀ {front}, front <+: answers → (connSendAllRun data front).Inv data := by
    rintro front ⟨back, rfl⟩
    exact inv_connSendAllRun (SendLoop.admitsAll_append h)
  have hall := hinv List.prefix_rfl
  refine ⟨fun front hfront => ?_, hall.ret_zero_iff, ?_, fun hcount hnone => ?_⟩
  · have hfirst := hinv hfront
    exact ⟨hfirst.taken ▸ List.take_prefix _ _, hfirst.taken, hfirst.sent_le⟩
  · have henter : (SendLoop.enter data).ret ≠ some (-1) := SendLoop.test_ne_failed data 0
    rw [connSendAllRun, SendLoop.ret_failed_iff henter]
    refine exists_congr fun front => exists_congr fun back => and_congr_right fun heq =>
      and_congr_right fun hnot => ?_
    -- no call of `front` has failed
    refine (hinv ⟨_, heq.symm⟩).ret_none_iff fun hfail => ?_
    obtain ⟨before, behind, rfl, -⟩ := (SendLoop.ret_failed_iff henter).mp hfail
    exact hnot (by simp)
  · have hbound := (SendLoop.inv_enter data).count_le h hnone
    have hlt := hall.sent_lt hnone
    have hzero : (SendLoop.enter data).sent = 0 := rfl
    rw [connSendAllRun] at hlt
    omega

/-- Three bytes in two pieces with an interruption before each. -/
theorem connSendAll_full_three :
    (connSendAllRun [1, 2, 3] [.interrupted, .sent 2, .interrupted, .sent 1]).taken =
        [1, 2, 3] ∧
      (connSendAllRun [1, 2, 3] [.interrupted, .sent 2, .interrupted, .sent 1]).ret =
        some 0 := by
  have hanswers : SendAnswers [1, 2, 3] [.interrupted, .sent 2, .interrupted, .sent 1] := by
    decide
  exact ⟨(connSendAll_full hanswers).2.1.mp (by decide), by decide⟩

end TCPClient
