import Mathlib.Data.List.DropRight

/-!
# Foundations - Trimming a list

The elements that satisfy a predicate are taken off the beginning or off the end of a list.
Taking them off the end is {lit}`List.rdropWhile`.

Main results:

- Definition `IsLongestPrefix`: the part that is taken off the beginning.
- Theorem `isLongestPrefix_iff`: there is exactly one.
- Theorem `one_lt_length_rdropWhile_iff`: when more than one element is left of a list
  that is trimmed at its end.
- Theorem `append_eq_rdropWhile_iff`: trimming the front part of a list is trimming the
  list only when nothing is taken off.
-/

namespace Trimming

open List

variable {α : Type} {p : α → Bool} {pre l front back : List α}

/-- `pre` is the longest beginning of `l` of elements that satisfy `p`. -/
structure IsLongestPrefix (p : α → Bool) (pre l : List α) : Prop where
  beginning : pre <+: l
  all : ∀ a ∈ pre, p a = true
  longest : ∀ pre', pre' <+: l → (∀ a ∈ pre', p a = true) → pre' <+: pre

theorem isLongestPrefix_takeWhile : IsLongestPrefix p (l.takeWhile p) l where
  beginning := takeWhile_prefix p
  all _ ha := mem_takeWhile_imp ha
  longest := by
    rintro pre' ⟨rest, rfl⟩ hall
    rw [takeWhile_append_of_pos hall]
    exact prefix_append _ _

/-- There is exactly one longest beginning. -/
theorem isLongestPrefix_iff : IsLongestPrefix p pre l ↔ pre = l.takeWhile p := by
  constructor
  · intro h
    have hwhole := isLongestPrefix_takeWhile (p := p) (l := l)
    have htake := h.longest _ hwhole.beginning hwhole.all
    have hpre := hwhole.longest pre h.beginning h.all
    exact hpre.eq_of_length_le htake.length_le
  · rintro rfl
    exact isLongestPrefix_takeWhile

/-! ## Trimming at the end -/

theorem rdropWhile_cons (a : α) :
    (a :: l).rdropWhile p =
      if l.rdropWhile p = [] then [a].rdropWhile p else a :: l.rdropWhile p := by
  by_cases hnil : l.reverse.dropWhile p = []
  · simp [rdropWhile, dropWhile_append, hnil]
  · simp [rdropWhile, dropWhile_append, hnil]

/-- More than one element is left exactly when one behind the first stays. -/
theorem one_lt_length_rdropWhile_iff :
    1 < (l.rdropWhile p).length ↔ ∃ a ∈ l.tail, ¬ p a = true := by
  cases l with
  | nil => simp
  | cons a l =>
      rw [rdropWhile_cons]
      split
      · rename_i hnil
        have hall := rdropWhile_eq_nil_iff.mp hnil
        have hprefix : [a].rdropWhile p <+: [a] := rdropWhile_prefix p _
        have hlength := hprefix.length_le
        simp only [length_singleton] at hlength
        grind
      · rename_i hne
        have hpos := length_pos_of_ne_nil hne
        have hexists : ¬ ∀ x ∈ l, p x = true := fun hall => hne (rdropWhile_eq_nil_iff.mpr hall)
        grind

/-- A list whose last element stays is not changed. -/
theorem rdropWhile_append_eq_self_iff (hback : back ≠ []) :
    (front ++ back).rdropWhile p = front ++ back ↔ ¬ p (back.getLast hback) = true := by
  have hne : front ++ back ≠ [] := by simp [hback]
  rw [rdropWhile_eq_self_iff, forall_prop_of_true hne, getLast_append_of_ne_nil _ hback]

/-- Trimming a front part at its end is trimming the whole list only when nothing goes. -/
theorem append_eq_rdropWhile_iff (hback : back ≠ []) :
    front.rdropWhile p ++ back = (front ++ back).rdropWhile p ↔
      front.rdropWhile p = front ∧ ¬ p (back.getLast hback) = true := by
  constructor
  · intro heq
    have hne : (front ++ back).rdropWhile p ≠ [] := by simp [← heq, hback]
    have hlast : ¬ p (back.getLast hback) = true := by
      have hkept := rdropWhile_last_not p _ hne
      simpa [← heq, getLast_append_of_ne_nil, hback] using hkept
    refine ⟨?_, hlast⟩
    rw [(rdropWhile_append_eq_self_iff hback).mpr hlast] at heq
    exact append_cancel_right heq
  · rintro ⟨hfront, hlast⟩
    rw [hfront, (rdropWhile_append_eq_self_iff hback).mpr hlast]

end Trimming
