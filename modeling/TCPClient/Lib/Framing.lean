import TCPClient.Lib.Feed

/-!
# Codec streams

`Codec p enc Wf` says that the parser `p` delivers the good values, each from its encoding in
front of anything, and nothing else.  Draining a stream and writing values one after the other are
then inverse to each other (`Codec.whole_iff`): a stream has one reading only, and the values of
a front of a stream are a front of its values.
-/

namespace Feed

variable {α β : Type}

/-- The parser delivers exactly the good values, from their encodings. -/
structure Codec (p : List α → Outcome β) (enc : β → List α) (Wf : β → Prop) : Prop where
  item : ∀ {b}, Wf b → ∀ rest, p (enc b ++ rest) = .item (enc b).length b
  sound : ∀ {xs n b}, p xs = .item n b → Wf b ∧ n = (enc b).length ∧ enc b <+: xs

/-- What a parser says about what it leaves. -/
def Outcome.stopped (bad : Bool) : Outcome β := if bad then .bad else .more

variable {p : List α → Outcome β} {enc : β → List α} {Wf : β → Prop}

/-- A drained buffer stops where the parser delivers nothing. -/
theorem whole_of_stopped (hp : Stable p) {xs : List α} {bad : Bool} (h : p xs = .stopped bad) :
    whole p xs = ⟨[], xs, bad⟩ := by
  cases bad with
  | false => exact whole_more h
  | true => exact whole_bad hp h

namespace Codec

/-- Values written one after the other are delivered in order. -/
theorem whole_flatMap (h : Codec p enc Wf) (hp : Stable p) {items : List β}
    (hitems : ∀ b ∈ items, Wf b) {left : List α} {bad : Bool} (hleft : p left = .stopped bad) :
    whole p (items.flatMap enc ++ left) = ⟨items, left, bad⟩ := by
  induction items with
  | nil => exact whole_of_stopped hp hleft
  | cons b items ih =>
    have hb := h.item (hitems b List.mem_cons_self) (items.flatMap enc ++ left)
    rw [List.flatMap_cons, List.append_assoc, whole_item hp hb, List.drop_left,
      ih fun b' hb' => hitems b' (List.mem_cons_of_mem b hb')]
    rfl

/-- **Draining and writing are inverse.** -/
theorem whole_iff (h : Codec p enc Wf) (hp : Stable p) {xs : List α} {d : Drained α β} :
    whole p xs = d ↔
      (∀ b ∈ d.items, Wf b) ∧ xs = d.items.flatMap enc ++ d.left ∧ p d.left = .stopped d.bad := by
  constructor
  · rintro rfl
    induction xs using whole_induction hp with
    | more xs hv =>
      rw [whole_more hv]
      exact ⟨by simp, by simp, hv⟩
    | bad xs hv =>
      rw [whole_bad hp hv]
      exact ⟨by simp, by simp, hv⟩
    | item xs n b hv ih =>
      obtain ⟨hwf, rfl, rest, rfl⟩ := h.sound hv
      rw [whole_item hp hv, List.drop_left]
      rw [List.drop_left] at ih
      obtain ⟨hitems, hrest, hleft⟩ := ih
      refine ⟨?_, ?_, hleft⟩
      · intro b' hb'
        rcases List.mem_cons.mp hb' with rfl | hb'
        · exact hwf
        · exact hitems b' hb'
      · show enc b ++ rest = (b :: (whole p rest).items).flatMap enc ++ (whole p rest).left
        rw [List.flatMap_cons, List.append_assoc, ← hrest]
  · rintro ⟨hitems, rfl, hleft⟩
    exact h.whole_flatMap hp hitems hleft

end Codec
end Feed
