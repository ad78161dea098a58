import Mathlib.Data.List.Basic
import Mathlib.Data.List.Nodup
import Mathlib.Logic.Function.Basic

/-!
# A folder a program puts files into

The program makes one file at a time: it creates a draft under a name that is free, writes into
it, and in the end discards or keeps it.  `Move` lists these steps, `Accounts` says where every
file of the folder comes from: it was there at the start, was kept, or is the draft.
`Accounts.move` carries the account along any step, so that no sequence of them overwrites or
removes a file that is not the draft.
-/

namespace Folder

variable {ν γ : Type}

/-- The contents of the files by name, and the draft if there is one. -/
abbrev Contents (ν γ : Type) := ν → Option γ

/-- Every file is an original one, a kept one or the draft, each with its content, and all of
    them have different names. -/
structure Accounts (start : Contents ν γ) (kept : List (ν × γ)) (draft : Option (ν × γ))
    (now : Contents ν γ) : Prop where
  keptNew : ∀ f ∈ kept, start f.1 = none
  keptOnce : (kept.map Prod.fst).Nodup
  keptThere : ∀ f ∈ kept, now f.1 = some f.2
  draftNew : ∀ f, draft = some f → start f.1 = none ∧ f.1 ∉ kept.map Prod.fst
  draftThere : ∀ f, draft = some f → now f.1 = some f.2
  others : ∀ name, name ∉ kept.map Prod.fst → (∀ f, draft = some f → f.1 ≠ name) →
    now name = start name

variable {start now now' : Contents ν γ} {kept new : List (ν × γ)} {draft draft' : Option (ν × γ)}

theorem Accounts.nil (start : Contents ν γ) : Accounts start [] none start := by
  constructor <;> simp

/-- A name without a file is neither an original nor a kept one. -/
theorem Accounts.fresh (h : Accounts start kept draft now) {name : ν} (hfree : now name = none) :
    start name = none ∧ name ∉ kept.map Prod.fst := by
  have hkept : name ∉ kept.map Prod.fst := by
    intro hmem
    obtain ⟨f, hf, rfl⟩ := List.mem_map.mp hmem
    rw [h.keptThere f hf] at hfree
    exact absurd hfree (by simp)
  refine ⟨?_, hkept⟩
  rw [← h.others name hkept ?_, hfree]
  rintro f hf rfl
  rw [h.draftThere f hf] at hfree
  exact absurd hfree (by simp)

/-- A draft becomes a kept file. -/
private theorem Accounts.keep {name : ν} {c : γ} (h : Accounts start kept (some (name, c)) now) :
    Accounts start (kept ++ [(name, c)]) none now := by
  obtain ⟨hnew, hfresh⟩ := h.draftNew _ rfl
  constructor
  · intro f hf
    rcases List.mem_append.mp hf with hf | hf
    · exact h.keptNew f hf
    · rw [List.mem_singleton.mp hf]
      exact hnew
  · rw [List.map_append, List.nodup_append]
    refine ⟨h.keptOnce, by simp, ?_⟩
    simp only [List.map_cons, List.map_nil, List.mem_singleton]
    rintro a ha _ rfl rfl
    exact hfresh ha
  · intro f hf
    rcases List.mem_append.mp hf with hf | hf
    · exact h.keptThere f hf
    · rw [List.mem_singleton.mp hf]
      exact h.draftThere _ rfl
  · simp
  · simp
  · intro other hother _
    simp only [List.map_append, List.map_cons, List.map_nil, List.mem_append,
      List.mem_singleton, not_or] at hother
    refine h.others other hother.1 fun f hf => ?_
    rw [← Option.some.inj hf]
    exact Ne.symm hother.2

variable [DecidableEq ν]

/-- One step, with the files it keeps. -/
inductive Move (now : Contents ν γ) :
    Option (ν × γ) → Contents ν γ → Option (ν × γ) → List (ν × γ) → Prop where
  | idle (draft : Option (ν × γ)) : Move now draft now draft []
  | create (name : ν) (c : γ) (hfree : now name = none) :
      Move now none (Function.update now name (some c)) (some (name, c)) []
  | write (name : ν) (c c' : γ) :
      Move now (some (name, c)) (Function.update now name (some c')) (some (name, c')) []
  | discard (name : ν) (c : γ) :
      Move now (some (name, c)) (Function.update now name none) none []
  | keep (name : ν) (c c' : γ) :
      Move now (some (name, c)) (Function.update now name (some c')) none [(name, c')]

/-- The file under a new or draft name changes; everything else stays as it was. -/
private theorem Accounts.update (h : Accounts start kept draft now) {name : ν}
    (hnew : start name = none ∧ name ∉ kept.map Prod.fst)
    (hdraft : ∀ f, draft = some f → f.1 = name) (content : Option γ)
    (hcontent : draft' = content.map fun c => (name, c)) :
    Accounts start kept draft' (Function.update now name content) := by
  have hdraft' : ∀ f, draft' = some f → f.1 = name ∧ content = some f.2 := by
    intro f hf
    cases content with
    | none => rw [hcontent] at hf; exact absurd hf (by simp)
    | some c =>
      rw [hcontent] at hf
      obtain rfl := Option.some.inj hf
      exact ⟨rfl, rfl⟩
  constructor
  · exact h.keptNew
  · exact h.keptOnce
  · intro f hf
    rw [Function.update_of_ne, h.keptThere f hf]
    rintro rfl
    exact hnew.2 (List.mem_map_of_mem hf)
  · intro f hf
    rw [(hdraft' f hf).1]
    exact hnew
  · intro f hf
    rw [(hdraft' f hf).1, Function.update_self, (hdraft' f hf).2]
  · intro other hother hne
    by_cases heq : other = name
    · subst heq
      rw [Function.update_self, hnew.1]
      cases content with
      | none => rfl
      | some c => exact absurd rfl (hne (other, c) (by simp [hcontent]))
    · rw [Function.update_of_ne heq]
      refine h.others other hother fun f hf => ?_
      rw [hdraft f hf]
      exact Ne.symm heq

/-- **Step lemma.** Every step keeps the account. -/
theorem Accounts.move (h : Accounts start kept draft now) (m : Move now draft now' draft' new) :
    Accounts start (kept ++ new) draft' now' := by
  cases m with
  | idle => simpa using h
  | create name c hfree => simpa using h.update (h.fresh hfree) (by simp) _ (by simp)
  | write name c c' => simpa using h.update (h.draftNew _ rfl) (by simp) _ (by simp)
  | discard name c => simpa using h.update (h.draftNew _ rfl) (by simp) _ (by simp)
  | keep name c c' =>
    exact (h.update (h.draftNew _ rfl) (by simp) (some c') rfl).keep

end Folder
