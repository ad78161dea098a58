import Mathlib.Data.List.Basic

/-!
# Incremental parsing of a stream that arrives in pieces

A parser `p` looks at the octets buffered so far and either asks for `more`, reports that the
stream is `bad`, or delivers one `item` together with the number of symbols it used.  It is
`Stable` when a verdict other than `more` does not depend on what has not arrived yet.

`whole p xs` applies `p` again and again from the start of `xs`; it is what a reader that sees
the whole stream at once would deliver.  The theorem a buffering reader needs is
`whole_append`: delivering what a first piece contains, keeping the rest, and going on with
the kept rest and the next piece is the same as parsing the two pieces together.
-/

namespace Feed

variable {α β : Type}

/-- What a parser says about a buffer. -/
inductive Outcome (β : Type) where
  | more
  | bad
  | item (n : Nat) (b : β)
  deriving DecidableEq, Repr

/-- The items delivered from a buffer, what is left of it, and whether it went bad. -/
structure Drained (α β : Type) where
  items : List β
  left : List α
  bad : Bool
  deriving DecidableEq, Repr

/-- Put an item in front of what was delivered. -/
def Drained.cons (b : β) (d : Drained α β) : Drained α β := { d with items := b :: d.items }

/-- A verdict, once given, stands: it uses part of the buffer and no later symbol changes it. -/
structure Stable (p : List α → Outcome β) : Prop where
  nil : p [] = .more
  item_le : ∀ {xs n b}, p xs = .item n b → 0 < n ∧ n ≤ xs.length
  append : ∀ {xs} (ys), p xs ≠ .more → p (xs ++ ys) = p xs

/-- Deliver at most `fuel` items from the front of a buffer. -/
def drain (p : List α → Outcome β) : Nat → List α → Drained α β
  | 0, xs => ⟨[], xs, false⟩
  | fuel + 1, xs =>
    match p xs with
    | .more => ⟨[], xs, false⟩
    | .bad => ⟨[], xs, true⟩
    | .item n b => (drain p fuel (xs.drop n)).cons b

/-- Deliver everything a buffer contains: each item uses at least one symbol, so as many
    rounds as there are symbols are enough. -/
def whole (p : List α → Outcome β) (xs : List α) : Drained α β := drain p xs.length xs

variable {p : List α → Outcome β}

/-- Fuel beyond the length of the buffer changes nothing. -/
theorem drain_eq_whole (hp : Stable p) {fuel : Nat} {xs : List α} (h : xs.length ≤ fuel) :
    drain p fuel xs = whole p xs := by
  -- two fuels that are both enough agree
  have key : ∀ (m k : Nat) (xs : List α), xs.length ≤ m → xs.length ≤ k →
      drain p m xs = drain p k xs := by
    intro m
    induction m with
    | zero =>
      intro k xs hm _
      have hxs : xs = [] := List.length_eq_zero_iff.mp (by omega)
      subst hxs
      cases k with
      | zero => rfl
      | succ k => simp only [drain, hp.nil]
    | succ m ih =>
      intro k xs hm hk
      cases k with
      | zero =>
        have hxs : xs = [] := List.length_eq_zero_iff.mp (by omega)
        subst hxs
        simp only [drain, hp.nil]
      | succ k =>
        simp only [drain]
        cases hv : p xs with
        | more => rfl
        | bad => rfl
        | item n b =>
          have hle := hp.item_le hv
          have hd : (xs.drop n).length = xs.length - n := List.length_drop
          simp only [ih k (xs.drop n) (by omega) (by omega)]
  exact key fuel xs.length xs h (Nat.le_refl _)

theorem whole_more {xs : List α} (h : p xs = .more) : whole p xs = ⟨[], xs, false⟩ := by
  unfold whole
  cases xs.length <;> simp only [drain, h]

theorem whole_bad (hp : Stable p) {xs : List α} (h : p xs = .bad) :
    whole p xs = ⟨[], xs, true⟩ := by
  rw [← drain_eq_whole hp (Nat.le_succ _)]
  simp only [drain, h]

theorem whole_item (hp : Stable p) {xs : List α} {n : Nat} {b : β} (h : p xs = .item n b) :
    whole p xs = (whole p (xs.drop n)).cons b := by
  have hle := hp.item_le h
  have hd : (xs.drop n).length = xs.length - n := List.length_drop
  rw [← drain_eq_whole hp (Nat.le_succ _)]
  simp only [drain, h]
  rw [drain_eq_whole hp (by omega)]

/-- The three ways a buffer is drained, as an induction principle: the parser asks for more,
    finds the stream bad, or delivers an item and goes on behind it. -/
theorem whole_induction (hp : Stable p) {motive : List α → Prop}
    (more : ∀ xs, p xs = .more → motive xs)
    (bad : ∀ xs, p xs = .bad → motive xs)
    (item : ∀ xs n b, p xs = .item n b → motive (xs.drop n) → motive xs)
    (xs : List α) : motive xs := by
  induction hlen : xs.length using Nat.strongRecOn generalizing xs with
  | _ len ih =>
    cases hv : p xs with
    | more => exact more xs hv
    | bad => exact bad xs hv
    | item n b =>
      have hle := hp.item_le hv
      have hd : (xs.drop n).length = xs.length - n := List.length_drop
      exact item xs n b hv (ih (xs.drop n).length (by omega) (xs.drop n) rfl)

/-- **Pieces.** Parsing a stream in two pieces: the items of the first piece come first; if
    it went bad nothing follows, otherwise its rest is parsed together with the second. -/
theorem whole_append (hp : Stable p) (xs ys : List α) :
    ((whole p (xs ++ ys)).items =
        if (whole p xs).bad then (whole p xs).items
        else (whole p xs).items ++ (whole p ((whole p xs).left ++ ys)).items) ∧
      ((whole p (xs ++ ys)).bad = ((whole p xs).bad || (whole p ((whole p xs).left ++ ys)).bad)) ∧
      ((whole p xs).bad = false →
        (whole p (xs ++ ys)).left = (whole p ((whole p xs).left ++ ys)).left) := by
  induction xs using whole_induction hp with
  | more xs h => simp [whole_more h]
  | bad xs h =>
    have h' : p (xs ++ ys) = .bad := by rw [hp.append ys (by simp [h]), h]
    simp [whole_bad hp h, whole_bad hp h']
  | item xs n b h ih =>
    have hle := hp.item_le h
    have h' : p (xs ++ ys) = .item n b := by rw [hp.append ys (by simp [h]), h]
    have hdrop : (xs ++ ys).drop n = xs.drop n ++ ys := List.drop_append_of_le_length hle.2
    obtain ⟨hitems, hbad, hleft⟩ := ih
    rw [whole_item hp h, whole_item hp h', hdrop]
    refine ⟨?_, hbad, hleft⟩
    cases hb : (whole p (xs.drop n)).bad <;> simp [Drained.cons, hitems, hb]

/-- What is left is the end of the buffer. -/
theorem left_suffix (hp : Stable p) (xs : List α) : (whole p xs).left <:+ xs := by
  induction xs using whole_induction hp with
  | more xs hv => exact ⟨[], congrArg Drained.left (whole_more hv)⟩
  | bad xs hv => exact ⟨[], congrArg Drained.left (whole_bad hp hv)⟩
  | item xs n b hv ih =>
    rw [whole_item hp hv]
    exact ih.trans (List.drop_suffix n xs)

/-- A drained buffer that is not bad asks for more. -/
theorem more_of_whole (hp : Stable p) {xs : List α} (h : (whole p xs).bad = false) :
    p (whole p xs).left = .more := by
  induction xs using whole_induction hp with
  | more xs hv => simpa [whole_more hv] using hv
  | bad xs hv => simp [whole_bad hp hv] at h
  | item xs n b hv ih =>
    rw [whole_item hp hv] at h ⊢
    exact ih h

end Feed
