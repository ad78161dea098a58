import Mathlib.Algebra.BigOperators.Intervals
import Mathlib.Algebra.Group.Action.Defs
import Mathlib.Algebra.BigOperators.Ring.Finset
import Mathlib.Algebra.Order.BigOperators.Group.Finset

/-!
# Traffic in rounds

A sender works in rounds, and in some of them its timer fires.  What it sends belongs to
exchanges, one after the other: an item opens an exchange, is a piece of it, closes it, or is
none of these.  `Round` is what a single round has to keep to, with two marks on the moments
before and after it: `resting`, when nothing is under way, and `begun`, when a piece of the
current exchange has been sent.  From it follows what holds over many rounds: `Paced.window_le`
bounds the pieces while the timer fires once, and `Paced.piece_before_closing` and
`Paced.lt_of_closing` put the pieces of an exchange into rounds before the one that closes it.
-/

namespace Rounds

variable {α : Type}

/-- An item of the kind is among those sent. -/
def Has (items : List α) (p : α → Bool) : Prop := ∃ a ∈ items, p a

/-- How many items of the kind are sent from round `i` on and before round `j`. -/
def countIn (sent : ℕ → List α) (p : α → Bool) (i j : ℕ) : ℕ :=
  ∑ k ∈ Finset.Ico i j, (sent k).countP p

/-- Their size. -/
def sizeIn (sent : ℕ → List α) (p : α → Bool) (size : α → ℕ) (i j : ℕ) : ℕ :=
  ∑ k ∈ Finset.Ico i j, (((sent k).filter p).map size).sum

/-- The number of the exchange that round `k` belongs to. -/
def exchange (sent : ℕ → List α) (opening : α → Bool) (k : ℕ) : ℕ :=
  ∑ i ∈ Finset.range k, (sent i).countP opening

/-- The timer fires at most once from round `i` on and before round `j`. -/
def FiresOnce (fires : ℕ → Prop) (i j : ℕ) : Prop :=
  ∀ k k', i ≤ k → k < j → i ≤ k' → k' < j → fires k → fires k' → k = k'

/-- What a round of a paced sender keeps to. -/
structure Round (opening piece closing : α → Bool) (limit : ℕ) (fires resting begun : Prop)
    (items : List α) (resting' begun' : Prop) : Prop where
  silent : ¬ fires → ¬ Has items piece ∧ ¬ Has items closing
  fired : fires → ¬ Has items opening ∧ items.countP piece ≤ limit
  closed : Has items closing → ¬ Has items piece ∧ begun ∧ resting'
  rest : resting → ¬ Has items piece ∧ (Has items opening ∨ resting')
  begins : begun' → Has items piece ∨ (begun ∧ ¬ Has items opening)

/-- A run of such rounds. -/
structure Paced (opening piece closing : α → Bool) (limit : ℕ) (fires resting begun : ℕ → Prop)
    (sent : ℕ → List α) : Prop where
  started : ¬ begun 0
  round : ∀ k, Round opening piece closing limit (fires k) (resting k) (begun k) (sent k)
    (resting (k + 1)) (begun (k + 1))

variable {sent : ℕ → List α} {p : α → Bool}

theorem countP_eq_zero_iff {items : List α} : items.countP p = 0 ↔ ¬ Has items p := by
  rw [List.countP_eq_zero, Has, not_exists]
  exact forall_congr' fun a => not_and.symm

/-- A round without an opening belongs to the exchange of the next one. -/
theorem exchange_succ {k : ℕ} (h : ¬ Has (sent k) p) :
    exchange sent p (k + 1) = exchange sent p k := by
  rw [exchange, Finset.sum_range_succ, countP_eq_zero_iff.mpr h]
  rfl

/-- Between two rounds of one exchange nothing is opened. -/
theorem not_opening_of_exchange_eq {i j k : ℕ} (h : exchange sent p i = exchange sent p j)
    (hi : i ≤ k) (hj : k < j) : ¬ Has (sent k) p := by
  have hsum := Finset.sum_range_add_sum_Ico (fun n => (sent n).countP p) (hi.trans hj.le)
  have hzero : ∑ n ∈ Finset.Ico i j, (sent n).countP p = 0 := by
    rw [exchange, exchange] at h
    omega
  exact countP_eq_zero_iff.mp (Finset.sum_eq_zero_iff.mp hzero k (Finset.mem_Ico.mpr ⟨hi, hj⟩))

/-- The size of a window is bounded by its number of items. -/
theorem sizeIn_le {size : α → ℕ} {bound : ℕ} (h : ∀ k, ∀ a ∈ sent k, p a → size a ≤ bound)
    (i j : ℕ) : sizeIn sent p size i j ≤ countIn sent p i j * bound := by
  rw [sizeIn, countIn, Finset.sum_mul]
  apply Finset.sum_le_sum
  intro k _
  have hround := List.sum_le_card_nsmul (((sent k).filter p).map size) bound (by
    intro n hn
    obtain ⟨a, ha, rfl⟩ := List.mem_map.mp hn
    exact h k a (List.mem_filter.mp ha).1 (List.mem_filter.mp ha).2)
  rw [List.length_map, smul_eq_mul] at hround
  rwa [List.countP_eq_length_filter]

/-! ### One round -/

theorem has_append {items items' : List α} :
    Has (items ++ items') p ↔ Has items p ∨ Has items' p := by
  simp only [Has, List.mem_append, or_and_right, exists_or]

theorem not_has_nil : ¬ Has ([] : List α) p := fun ⟨_, ha, _⟩ => absurd ha List.not_mem_nil

section Round

variable {opening piece closing : α → Bool} {limit : ℕ}

/-- A part of a round in which the timer does not fire. -/
abbrev Unfired (opening piece closing : α → Bool) (limit : ℕ) (resting begun : Prop)
    (items : List α) (resting' begun' : Prop) : Prop :=
  Round opening piece closing limit False resting begun items resting' begun'

variable {resting begun resting' begun' resting'' begun'' : Prop} {items items' : List α}

/-- Marks may be read in other words. -/
theorem Round.imp {fires fires' rest begun₀ rest' begun₀' : Prop}
    (h : Round opening piece closing limit fires resting begun items resting' begun')
    (hfires : fires' ↔ fires) (hrest : rest → resting) (hbegun : begun → begun₀)
    (hrest' : resting' → rest') (hbegun' : begun₀' → begun') :
    Round opening piece closing limit fires' rest begun₀ items rest' begun₀' where
  silent hn := h.silent fun hf => hn (hfires.mpr hf)
  fired hf := h.fired (hfires.mp hf)
  closed hc := ⟨(h.closed hc).1, hbegun (h.closed hc).2.1, hrest' (h.closed hc).2.2⟩
  rest hr := ⟨(h.rest (hrest hr)).1, (h.rest (hrest hr)).2.imp_right hrest'⟩
  begins hb := (h.begins (hbegun' hb)).imp_right fun hb => ⟨hbegun hb.1, hb.2⟩

/-- Nothing is sent. -/
theorem Round.idle {fires : Prop} (hrest : resting → resting') (hbegun : begun' → begun) :
    Round opening piece closing limit fires resting begun [] resting' begun' where
  silent _ := ⟨not_has_nil, not_has_nil⟩
  fired _ := ⟨not_has_nil, Nat.zero_le limit⟩
  closed h := absurd h not_has_nil
  rest h := ⟨not_has_nil, Or.inr (hrest h)⟩
  begins h := Or.inr ⟨hbegun h, not_has_nil⟩

theorem Unfired.mk (hpiece : ¬ Has items piece) (hclosing : ¬ Has items closing)
    (hrest : resting → Has items opening ∨ resting')
    (hbegins : begun' → begun ∧ ¬ Has items opening) :
    Unfired opening piece closing limit resting begun items resting' begun' where
  silent _ := ⟨hpiece, hclosing⟩
  fired h := h.elim
  closed h := absurd h hclosing
  rest h := ⟨hpiece, hrest h⟩
  begins h := Or.inr (hbegins h)

theorem Unfired.refl (resting begun : Prop) :
    Unfired opening piece closing limit resting begun [] resting begun :=
  .idle id id

/-- Two parts are one. -/
theorem Unfired.trans (h : Unfired opening piece closing limit resting begun items resting' begun')
    (h' : Unfired opening piece closing limit resting' begun' items' resting'' begun'') :
    Unfired opening piece closing limit resting begun (items ++ items') resting'' begun'' := by
  obtain ⟨hpiece, hclosing⟩ := h.silent not_false
  obtain ⟨hpiece', hclosing'⟩ := h'.silent not_false
  refine .mk ?_ ?_ (fun hrest => ?_) fun hbegun => ?_
  · rw [has_append]
    exact not_or.mpr ⟨hpiece, hpiece'⟩
  · rw [has_append]
    exact not_or.mpr ⟨hclosing, hclosing'⟩
  · rw [has_append]
    rcases (h.rest hrest).2 with hopen | hrest'
    · exact Or.inl (Or.inl hopen)
    · exact ((h'.rest hrest').2).imp_left Or.inr
  · obtain ⟨hbegun', hopen'⟩ := (h'.begins hbegun).resolve_left hpiece'
    obtain ⟨hbegun, hopen⟩ := (h.begins hbegun').resolve_left hpiece
    rw [has_append]
    exact ⟨hbegun, not_or.mpr ⟨hopen, hopen'⟩⟩

end Round

/-! ### Many rounds -/

namespace Paced

variable {opening piece closing : α → Bool} {fires : ℕ → Prop} {limit : ℕ}
  {resting begun : ℕ → Prop}

/-- **While the timer fires once, at most `limit` pieces are sent.** -/
theorem window_le (h : Paced opening piece closing limit fires resting begun sent) {i j : ℕ}
    (honce : FiresOnce fires i j) : countIn sent piece i j ≤ limit := by
  have hsilent {k : ℕ} (hk : ¬ fires k) : (sent k).countP piece = 0 :=
    countP_eq_zero_iff.mpr ((h.round k).silent hk).1
  by_cases hfires : ∃ k ∈ Finset.Ico i j, fires k
  · -- every other round of the window is silent
    obtain ⟨k, hk, hfire⟩ := hfires
    rw [countIn, Finset.sum_eq_single_of_mem k hk]
    · exact ((h.round k).fired hfire).2
    · intro k' hk' hne
      obtain ⟨hik, hkj⟩ := Finset.mem_Ico.mp hk
      obtain ⟨hik', hkj'⟩ := Finset.mem_Ico.mp hk'
      exact hsilent fun hfire' => hne (honce k' k hik' hkj' hik hkj hfire' hfire)
  · have hzero : countIn sent piece i j = 0 :=
      Finset.sum_eq_zero fun k hk => hsilent fun hfire => hfires ⟨k, hk, hfire⟩
    omega

/-- **Run lemma.** Rest lasts until something is opened. -/
theorem resting_of_not_opening (h : Paced opening piece closing limit fires resting begun sent)
    {i j : ℕ} (hrest : resting i) (hij : i ≤ j)
    (hnone : ∀ k, i ≤ k → k < j → ¬ Has (sent k) opening) : resting j := by
  induction j, hij using Nat.le_induction with
  | base => exact hrest
  | succ j hij ih =>
    have hj := ih fun k hik hkj => hnone k hik (by omega)
    exact (((h.round j).rest hj).2).resolve_left (hnone j hij (by omega))

/-- **Run lemma.** Something begun has sent a piece. -/
theorem piece_of_begun (h : Paced opening piece closing limit fires resting begun sent) {k : ℕ}
    (hbegun : begun k) :
    ∃ j < k, Has (sent j) piece ∧ exchange sent opening j = exchange sent opening k := by
  induction k with
  | zero => exact absurd hbegun h.started
  | succ k ih =>
    rcases (h.round k).begins hbegun with hpiece | ⟨hbegun, hopen⟩
    · -- pieces are sent when the timer fires, and openings are not
      have hfires : fires k := by
        by_contra hnot
        exact ((h.round k).silent hnot).1 hpiece
      exact ⟨k, by omega, hpiece, (exchange_succ ((h.round k).fired hfires).1).symm⟩
    · obtain ⟨j, hjk, hpiece, heq⟩ := ih hbegun
      exact ⟨j, by omega, hpiece, heq.trans (exchange_succ hopen).symm⟩

/-- **What is closed has had a piece.** -/
theorem piece_before_closing (h : Paced opening piece closing limit fires resting begun sent)
    {k : ℕ} (hclosing : Has (sent k) closing) :
    ∃ j < k, Has (sent j) piece ∧ exchange sent opening j = exchange sent opening k :=
  h.piece_of_begun ((h.round k).closed hclosing).2.1

/-- **The pieces of an exchange come before the round that closes it.** -/
theorem lt_of_closing (h : Paced opening piece closing limit fires resting begun sent) {j k : ℕ}
    (hclosing : Has (sent k) closing) (hpiece : Has (sent j) piece)
    (heq : exchange sent opening j = exchange sent opening k) : j < k := by
  obtain ⟨hnone, -, hrest⟩ := (h.round k).closed hclosing
  -- from the closing round on all rests, as nothing is opened before round `j`
  by_contra hjk
  rcases eq_or_lt_of_le (not_lt.mp hjk) with rfl | hkj
  · exact hnone hpiece
  · have hopen : ∀ n, k + 1 ≤ n → n < j → ¬ Has (sent n) opening :=
      fun n hn hnj => not_opening_of_exchange_eq heq.symm (by omega) hnj
    exact ((h.round j).rest (h.resting_of_not_opening hrest hkj hopen)).1 hpiece

end Paced
end Rounds
