import Mathlib.Data.List.Basic

/-!
# Parts of a machine that do not notice each other

A part of a machine is a view of its state, together with what the machine gives out on its
behalf.  `Unwinds` lists what one event has to satisfy: an event that is not meant for the part
leaves its view alone and gives nothing out, and the others do to it what the view decides.  Two
runs that have the same events for the part are then the same to it (`Unwinds.run`), whatever
else happens in them and wherever it stands.
-/

namespace Unwinding

variable {σ ε β ω : Type}

/-- What a run gives out. -/
def outputs (step : σ → ε → σ) (out : σ → ε → List ω) : σ → List ε → List ω
  | _, [] => []
  | s, e :: es => out s e ++ outputs step out (step s e) es

/-- The condition holds before every step of a run. -/
def Throughout (step : σ → ε → σ) (P : σ → Prop) : σ → List ε → Prop
  | _, [] => True
  | s, e :: es => P s ∧ Throughout step P (step s e) es

instance Throughout.decidable (step : σ → ε → σ) (P : σ → Prop) [DecidablePred P] (s : σ) :
    (es : List ε) → Decidable (Throughout step P s es)
  | [] => inferInstanceAs (Decidable True)
  | e :: es =>
    have := Throughout.decidable step P (step s e) es
    inferInstanceAs (Decidable (P s ∧ Throughout step P (step s e) es))

/-- What one event does to a part of the machine, in the states that keep to `P`. -/
structure Unwinds (step : σ → ε → σ) (out : σ → ε → List ω) (view : σ → β) (P : σ → Prop)
    (seen : ε → Bool) : Prop where
  unseen : ∀ s e, seen e = false → view (step s e) = view s ∧ out s e = []
  seen : ∀ s t e, P s → P t → view s = view t →
    view (step s e) = view (step t e) ∧ out s e = out t e

variable {step : σ → ε → σ} {out : σ → ε → List ω} {view : σ → β} {P : σ → Prop}
  {seen : ε → Bool}

theorem outputs_append (s : σ) (es es' : List ε) :
    outputs step out s (es ++ es') =
      outputs step out s es ++ outputs step out (es.foldl step s) es' := by
  induction es generalizing s with
  | nil => rfl
  | cons e es ih => simp [outputs, ih]

theorem Throughout.append_right {s : σ} {es es' : List ε}
    (h : Throughout step P s (es ++ es')) : Throughout step P (es.foldl step s) es' := by
  induction es generalizing s with
  | nil => exact h
  | cons e es ih => exact ih h.2

/-- A condition that every step keeps holds throughout. -/
theorem throughout_of_kept (hkept : ∀ s e, P s → P (step s e)) {s : σ} (hs : P s) (es : List ε) :
    Throughout step P s es := by
  induction es generalizing s with
  | nil => trivial
  | cons e es ih => exact ⟨hs, ih (hkept s e hs)⟩

/-- A run without events for the part passes it by. -/
theorem Unwinds.run_unseen (h : Unwinds step out view P seen) (s : σ) {es : List ε}
    (hes : ∀ e ∈ es, seen e = false) :
    view (es.foldl step s) = view s ∧ outputs step out s es = [] := by
  induction es generalizing s with
  | nil => exact ⟨rfl, rfl⟩
  | cons e es ih =>
    obtain ⟨hview, hout⟩ := h.unseen s e (hes e (List.mem_cons_self ..))
    obtain ⟨hrest, hnone⟩ := ih (step s e) fun e' he' => hes e' (List.mem_cons_of_mem _ he')
    exact ⟨hrest.trans hview, by rw [outputs, hout, hnone]; rfl⟩

/-- **Unwinding.** Runs with the same events for a part are the same to it. -/
theorem Unwinds.run (h : Unwinds step out view P seen) {s t : σ} {es es' : List ε}
    (hview : view s = view t) (hevents : es.filter seen = es'.filter seen)
    (hs : Throughout step P s es) (ht : Throughout step P t es') :
    view (es.foldl step s) = view (es'.foldl step t) ∧
      outputs step out s es = outputs step out t es' := by
  induction es generalizing s t es' with
  | nil =>
    have hnone : ∀ e ∈ es', seen e = false := by
      simpa using List.filter_eq_nil_iff.mp hevents.symm
    obtain ⟨hsame, hout⟩ := h.run_unseen t hnone
    exact ⟨hview.trans hsame.symm, hout.symm⟩
  | cons e es ih =>
    cases hseen : seen e with
    | false =>
      obtain ⟨hsame, hout⟩ := h.unseen s e hseen
      rw [List.filter_cons_of_neg (by simp [hseen])] at hevents
      obtain ⟨hrest, houts⟩ := ih (hsame.trans hview) hevents hs.2 ht
      exact ⟨hrest, by rw [outputs, hout, houts]; rfl⟩
    | true =>
      -- the other run has the event too, behind some that are not for the part
      rw [List.filter_cons_of_pos hseen] at hevents
      obtain ⟨before, after, rfl, hbefore, -, hafter⟩ := List.filter_eq_cons_iff.mp hevents.symm
      obtain ⟨hsame, hnone⟩ := h.run_unseen t fun e' he' => by simpa using hbefore e' he'
      have ht' := ht.append_right
      obtain ⟨hstep, hout⟩ := h.seen s (before.foldl step t) e hs.1 ht'.1 (hview.trans hsame.symm)
      obtain ⟨hrest, houts⟩ := ih hstep hafter.symm hs.2 ht'.2
      rw [List.foldl_append, outputs_append, hnone]
      exact ⟨hrest, by rw [outputs, hout, houts]; rfl⟩

end Unwinding
