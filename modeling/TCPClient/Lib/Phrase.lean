import Mathlib.Data.List.Infix

/-!
# Searching a text assembled from fields for a fixed phrase

A message is assembled from literals and variable fields; a receiver looks for a phrase in the
whole text.  Where can the phrase occur?  Inside a literal, inside a field, or across a
boundary.  `NoTail` and `NoHead` are decidable conditions on a literal that rule the last case
out, and the `infix_*` lemmas peel one segment off at a time, so that for a concrete message
only the variable field is left to ask about.
-/

namespace Phrase

variable {α : Type} {needle lit : List α}

/-- No non-empty prefix of the phrase ends the literal: the phrase cannot start inside it and
    run on behind it. -/
def NoTail (needle lit : List α) : Prop := ∀ u ∈ needle.inits, u ≠ [] → ¬ u <:+ lit

/-- No non-empty suffix of the phrase begins the literal, nor is the literal the beginning of
    one: the phrase cannot start before the literal and run into it. -/
def NoHead (needle lit : List α) : Prop :=
  ∀ v ∈ needle.tails, v ≠ [] → ¬ v <+: lit ∧ ¬ lit <+: v

instance [DecidableEq α] : Decidable (NoTail needle lit) :=
  inferInstanceAs (Decidable (∀ u ∈ needle.inits, u ≠ [] → ¬ u <:+ lit))

instance [DecidableEq α] : Decidable (NoHead needle lit) :=
  inferInstanceAs (Decidable (∀ v ∈ needle.tails, v ≠ [] → ¬ v <+: lit ∧ ¬ lit <+: v))

/-- A leading literal that cannot hold the phrase or its beginning may be dropped. -/
theorem infix_lit_append (ht : NoTail needle lit) (hl : ¬ needle <:+: lit) (rest : List α) :
    needle <:+: lit ++ rest ↔ needle <:+: rest := by
  rw [List.infix_append_iff]
  constructor
  · rintro (h | h | ⟨u, v, huv, hu, hv⟩)
    · exact absurd h hl
    · exact h
    · have hu0 : u = [] := by
        by_contra hne
        exact ht u (List.mem_inits u needle |>.mpr ⟨v, huv.symm⟩) hne hu
      subst hu0
      rw [huv]; exact hv.isInfix
  · intro h; exact Or.inr (Or.inl h)

/-- A leading field that shares no symbol with the phrase may be dropped. -/
theorem infix_disjoint_append {field : List α} (hne : needle ≠ [])
    (hd : ∀ x ∈ field, x ∉ needle) (rest : List α) :
    needle <:+: field ++ rest ↔ needle <:+: rest := by
  apply infix_lit_append
  · intro u hu hu0 hsuf
    obtain ⟨x, hx⟩ := List.exists_mem_of_ne_nil u hu0
    exact hd x (hsuf.subset hx) ((List.mem_inits u needle |>.mp hu).subset hx)
  · intro h
    obtain ⟨x, hx⟩ := List.exists_mem_of_ne_nil needle hne
    exact hd x (h.subset hx) hx

/-- A field followed by a literal that the phrase cannot run into: the phrase is in the field
    or behind it. -/
theorem infix_append_lit (hh : NoHead needle lit) (field rest : List α) :
    needle <:+: field ++ (lit ++ rest) ↔ needle <:+: field ∨ needle <:+: lit ++ rest := by
  rw [List.infix_append_iff]
  constructor
  · rintro (h | h | ⟨u, v, huv, hu, hv⟩)
    · exact Or.inl h
    · exact Or.inr h
    · have hv0 : v = [] := by
        by_contra hne
        have hmem : v ∈ needle.tails := List.mem_tails v needle |>.mpr ⟨u, huv.symm⟩
        obtain ⟨h1, h2⟩ := hh v hmem hne
        rcases List.prefix_or_prefix_of_prefix hv (List.prefix_append lit rest) with h | h
        · exact h1 h
        · exact h2 h
      subst hv0
      rw [List.append_nil] at huv
      rw [huv]; exact Or.inl hu.isInfix
  · rintro (h | h)
    · exact Or.inl h
    · exact Or.inr (Or.inl h)

/-- A phrase inside a segment is inside the text. -/
theorem infix_of_segment {seg : List α} (h : needle <:+: seg) (front rest : List α) :
    needle <:+: front ++ (seg ++ rest) :=
  h.trans ⟨front, rest, by simp⟩

end Phrase
