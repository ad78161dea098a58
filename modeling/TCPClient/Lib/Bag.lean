import Mathlib.Data.List.Nodup
import Mathlib.Data.List.Perm.Basic
import Mathlib.Logic.Function.Basic

/-!
# A table of slots as a bag of entries

A table `r` has finitely many slots, each free or with one entry.  Where an entry stands is
often of no interest; what counts is how often it is there.  `entries slots r` lists the
entries, and up to permutation filling a free slot adds one and freeing a slot removes one.
-/

namespace Bag

variable {ι β : Type}

/-- The entries of a table, slot by slot. -/
def entries (slots : List ι) (r : ι → Option β) : List β := slots.filterMap r

theorem mem_entries {slots : List ι} {r : ι → Option β} {b : β} :
    b ∈ entries slots r ↔ ∃ i ∈ slots, r i = some b :=
  List.mem_filterMap

theorem entries_eq_nil {slots : List ι} {r : ι → Option β} :
    entries slots r = [] ↔ ∀ i ∈ slots, r i = none := by
  simp [entries, List.filterMap_eq_nil_iff]

theorem length_entries_le (slots : List ι) (r : ι → Option β) :
    (entries slots r).length ≤ slots.length :=
  List.length_filterMap_le r slots

/-- A free slot leaves room. -/
theorem length_entries_lt {slots : List ι} {r : ι → Option β} {i : ι} (hi : i ∈ slots)
    (hfree : r i = none) : (entries slots r).length < slots.length := by
  induction slots with
  | nil => exact absurd hi (by simp)
  | cons j slots ih =>
    rcases List.mem_cons.mp hi with rfl | hi
    · have hle := length_entries_le slots r
      rw [entries] at hle ⊢
      rw [List.filterMap_cons_none hfree, List.length_cons]
      omega
    · have hlt := ih hi
      rw [entries] at hlt ⊢
      cases hj : r j with
      | none =>
        rw [List.filterMap_cons_none hj, List.length_cons]
        omega
      | some b =>
        rw [List.filterMap_cons_some hj, List.length_cons, List.length_cons]
        omega

/-- Without a free slot there are as many entries as slots. -/
theorem length_entries_eq {slots : List ι} {r : ι → Option β}
    (hfull : ∀ i ∈ slots, r i ≠ none) : (entries slots r).length = slots.length := by
  induction slots with
  | nil => rfl
  | cons i slots ih =>
    obtain ⟨b, hb⟩ := Option.ne_none_iff_exists'.mp (hfull i (by simp))
    have hrest := ih fun j hj => hfull j (List.mem_cons_of_mem _ hj)
    rw [entries] at hrest ⊢
    rw [List.filterMap_cons_some hb, List.length_cons, List.length_cons, hrest]

section Update

variable [DecidableEq ι] {slots : List ι} {r : ι → Option β} {i : ι}

/-- The entry of one slot, and the others. -/
theorem entries_perm (hi : i ∈ slots) :
    (entries slots r).Perm ((r i).toList ++ entries (slots.erase i) r) := by
  have hperm := (List.perm_cons_erase hi).filterMap r
  cases hb : r i with
  | none => rwa [List.filterMap_cons_none hb] at hperm
  | some b => rwa [List.filterMap_cons_some hb] at hperm

theorem entries_erase_update (hnodup : slots.Nodup) (b : Option β) :
    entries (slots.erase i) (Function.update r i b) = entries (slots.erase i) r := by
  apply List.filterMap_congr
  intro j hj
  exact Function.update_of_ne (List.Nodup.mem_erase_iff hnodup |>.mp hj).1 b r

/-- **Filling a free slot** adds its entry. -/
theorem entries_put (hnodup : slots.Nodup) (hi : i ∈ slots) (hfree : r i = none) (b : β) :
    (entries slots (Function.update r i (some b))).Perm (b :: entries slots r) := by
  have hnew := entries_perm (r := Function.update r i (some b)) hi
  have hold := entries_perm (r := r) hi
  rw [Function.update_self, entries_erase_update hnodup] at hnew
  rw [hfree] at hold
  exact hnew.trans (hold.symm.cons b)

/-- **Freeing a slot** removes its entry. -/
theorem entries_free (hnodup : slots.Nodup) (hi : i ∈ slots) {b : β} (hb : r i = some b) :
    (entries slots r).Perm (b :: entries slots (Function.update r i none)) := by
  -- filling the slot again is the inverse
  have hput := entries_put (r := Function.update r i none) hnodup hi (Function.update_self ..) b
  rwa [Function.update_idem, ← hb, Function.update_eq_self] at hput

end Update
end Bag
