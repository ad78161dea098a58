import Mathlib.Data.List.Basic

/-!
# Traces that a protocol admits

A protocol says in which states which event may come and what state follows.  `Run step s es t`
says that the events `es`, one after the other, may come from `s` on and lead to `t`.  Runs are
put together with `Run.append` and cut with `Run.split`; `Run.invariant` is the rule for what
holds along a run, and `Run.of_mem` looks at the step of a single event.
-/

namespace Trace

variable {σ ε : Type}

/-- The events may come one after the other. -/
inductive Run (step : σ → ε → σ → Prop) : σ → List ε → σ → Prop where
  | nil (s : σ) : Run step s [] s
  | cons {s t u : σ} {e : ε} {es : List ε} (first : step s e t) (rest : Run step t es u) :
      Run step s (e :: es) u

variable {step : σ → ε → σ → Prop} {s t u : σ} {e : ε} {es es' : List ε}

theorem Run.single (h : step s e t) : Run step s [e] t := .cons h (.nil t)

theorem Run.append (h : Run step s es t) (h' : Run step t es' u) : Run step s (es ++ es') u := by
  induction h with
  | nil s => exact h'
  | cons first _ ih => exact .cons first (ih h')

/-- **Every front of a run is a run**, and so is what follows it. -/
theorem Run.split (h : Run step s (es ++ es') u) :
    ∃ t, Run step s es t ∧ Run step t es' u := by
  induction es generalizing s with
  | nil => exact ⟨s, .nil s, h⟩
  | cons e es ih =>
    cases h with
    | cons first rest =>
      obtain ⟨t, hfront, hback⟩ := ih rest
      exact ⟨t, .cons first hfront, hback⟩

/-- **Invariant rule.** -/
theorem Run.invariant {P : σ → Prop} (hstep : ∀ s e t, P s → step s e t → P t)
    (h : Run step s es t) (hs : P s) : P t := by
  induction h with
  | nil s => exact hs
  | cons first _ ih => exact ih (hstep _ _ _ hs first)

/-- An event of a run is admitted where it comes, and the invariant holds there. -/
theorem Run.of_mem {P : σ → Prop} (h : Run step s es u)
    (hstep : ∀ s e t, P s → step s e t → P t) (hs : P s) (he : e ∈ es) :
    ∃ t t', P t ∧ step t e t' := by
  obtain ⟨front, back, rfl⟩ := List.append_of_mem he
  obtain ⟨t, hfront, hback⟩ := h.split
  cases hback with
  | cons first rest => exact ⟨_, _, hfront.invariant hstep hs, first⟩

end Trace
