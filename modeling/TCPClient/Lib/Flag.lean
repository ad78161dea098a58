import Mathlib.Data.List.Basic

/-!
# Machines whose state is one flag

A flag is set by the first symbol that `sets` it and stays set; what a symbol writes depends on the
flag in front of it.  So a word may be cut anywhere (`write_append`), and behind the first such
symbol every one writes its own text (`write_true`).
-/

namespace Flag

variable {α β : Type} (sets : α → Bool) (out : Bool → α → List β)

/-- What a word writes. -/
def write : Bool → List α → List β
  | _, [] => []
  | flag, a :: as => out flag a ++ write (flag || sets a) as

theorem write_append (flag : Bool) (xs ys : List α) :
    write sets out flag (xs ++ ys) =
      write sets out flag xs ++ write sets out (flag || xs.any sets) ys := by
  induction xs generalizing flag with
  | nil => simp [write]
  | cons a xs ih =>
    rw [List.cons_append, write, write, ih, List.append_assoc, List.any_cons, Bool.or_assoc]

/-- Once the flag is up, every symbol writes its own text. -/
theorem write_true (xs : List α) : write sets out true xs = xs.flatMap (out true) := by
  induction xs with
  | nil => rfl
  | cons a xs ih => rw [write, Bool.true_or, ih, List.flatMap_cons]

/-- Symbols that write nothing with the flag up can be left out behind it. -/
theorem write_filter {keep : α → Bool} (h : ∀ a, keep a = false → out true a = []) (xs : List α) :
    write sets out true (xs.filter keep) = write sets out true xs := by
  rw [write_true, write_true]
  induction xs with
  | nil => rfl
  | cons a xs ih =>
    cases hkeep : keep a with
    | false => rw [List.filter_cons_of_neg (by simp [hkeep]), ih, List.flatMap_cons, h a hkeep,
        List.nil_append]
    | true => rw [List.filter_cons_of_pos hkeep, List.flatMap_cons, List.flatMap_cons, ih]

end Flag
