import CciDaemon.Foundations.Transition
import Mathlib.Algebra.BigOperators.Group.Finset.Piecewise
import Mathlib.Data.Fintype.Basic
import Mathlib.Tactic.Ring

/-!
# Foundations - Counting threads by their control point

The threads of a pool are indexed by a finite type and each of them is at some
control point.  `countAt p f` is the number of threads whose control point
satisfies `p`; a step of one thread moves it by the difference of two indicators.

Main results:

- Theorem `countAt_update`: the effect of moving one thread; `countAt_update_same`,
  `countAt_update_in` and `countAt_update_out` are its three cases.
- Theorem `countAt_pos_iff` / `countAt_eq_zero_iff`: a count and the threads behind it.
- Theorem `eq_of_countAt_le_one`: a count of at most one names at most one thread.
-/

namespace Counting

instance : Fintype Transition.Party where
  elems := {.first, .second}
  complete := by
    intro party
    cases party <;> decide

variable {ι β : Type*} [Fintype ι] [DecidableEq ι]

/-- The number of threads whose control point satisfies `p`. -/
def countAt (p : β → Prop) [DecidablePred p] (f : ι → β) : Nat :=
  (Finset.univ.filter fun i => p (f i)).card

/-- Moving thread `i` from `f i` to `b` changes a sum over the threads by the difference of
their two summands. -/
theorem sum_update (g : β → Nat) (f : ι → β) (i : ι) (b : β) :
    ∑ j, g (Function.update f i b j) + g (f i) = ∑ j, g (f j) + g b := by
  have hrest : ∑ j ∈ Finset.univ.erase i, g (Function.update f i b j) =
      ∑ j ∈ Finset.univ.erase i, g (f j) := by
    apply Finset.sum_congr rfl
    intro j hj
    rw [Function.update_of_ne (Finset.ne_of_mem_erase hj)]
  rw [← Finset.add_sum_erase Finset.univ (fun j => g (Function.update f i b j))
      (Finset.mem_univ i), ← Finset.add_sum_erase Finset.univ (fun j => g (f j))
      (Finset.mem_univ i), Function.update_self, hrest]
  omega

variable {p q : β → Prop} [DecidablePred p] [DecidablePred q] {f : ι → β}

omit [DecidableEq ι] in
theorem countAt_eq_sum : countAt p f = ∑ i, if p (f i) then 1 else 0 :=
  Finset.card_filter _ _

/-- Moving thread `i` from `f i` to `b` changes a count by the difference of the
indicators of the two control points. -/
theorem countAt_update (i : ι) (b : β) :
    countAt p (Function.update f i b) + (if p (f i) then 1 else 0) =
      countAt p f + (if p b then 1 else 0) := by
  have hrest :
      ∑ j ∈ Finset.univ.erase i, (if p (Function.update f i b j) then 1 else 0) =
        ∑ j ∈ Finset.univ.erase i, (if p (f j) then 1 else 0) := by
    apply Finset.sum_congr rfl
    intro j hj
    rw [Function.update_of_ne (Finset.ne_of_mem_erase hj)]
  have hnew := Finset.add_sum_erase Finset.univ
    (fun j => if p (Function.update f i b j) then 1 else 0) (Finset.mem_univ i)
  have hold := Finset.add_sum_erase Finset.univ
    (fun j => if p (f j) then 1 else 0) (Finset.mem_univ i)
  simp only [Function.update_self] at hnew
  rw [countAt_eq_sum, countAt_eq_sum, ← hnew, ← hold, hrest]
  ring

/-- A move that does not change the test. -/
theorem countAt_update_same {i : ι} {b : β} (h : p (f i) ↔ p b) :
    countAt p (Function.update f i b) = countAt p f := by
  have hmove := countAt_update (p := p) (f := f) i b
  simp only [h] at hmove
  omega

/-- A move to a control point that passes the test. -/
theorem countAt_update_in {i : ι} {b : β} (hfrom : ¬ p (f i)) (hto : p b) :
    countAt p (Function.update f i b) = countAt p f + 1 := by
  simpa [hfrom, hto] using countAt_update (p := p) (f := f) i b

/-- A move away from the control points that pass the test. -/
theorem countAt_update_out {i : ι} {b : β} (hfrom : p (f i)) (hto : ¬ p b) :
    countAt p f = countAt p (Function.update f i b) + 1 := by
  simpa [hfrom, hto] using (countAt_update (p := p) (f := f) i b).symm

/-- A move that does not give the test up. -/
theorem countAt_le_update {i : ι} {b : β} (h : p (f i) → p b) :
    countAt p f ≤ countAt p (Function.update f i b) := by
  by_cases hfrom : p (f i)
  · exact (countAt_update_same (iff_of_true hfrom (h hfrom))).ge
  · have hmove := countAt_update (p := p) (f := f) i b
    rw [if_neg hfrom] at hmove
    omega

omit [DecidableEq ι] in
theorem countAt_pos_iff : 0 < countAt p f ↔ ∃ i, p (f i) := by
  simp [countAt, Finset.card_pos, Finset.Nonempty]

omit [DecidableEq ι] in
theorem countAt_eq_zero_iff : countAt p f = 0 ↔ ∀ i, ¬ p (f i) := by
  simp [countAt, Finset.filter_eq_empty_iff]

/-- Two tests that exclude each other. -/
theorem countAt_or (h : ∀ b, p b → ¬ q b) :
    countAt (fun b => p b ∨ q b) f = countAt p f + countAt q f := by
  have hdisjoint : Disjoint (Finset.univ.filter fun i => p (f i))
      (Finset.univ.filter fun i => q (f i)) :=
    Finset.disjoint_filter.mpr fun i _ hp => h (f i) hp
  rw [countAt, Finset.filter_or, Finset.card_union_of_disjoint hdisjoint]
  rfl

omit [DecidableEq ι] in
/-- A stronger test counts fewer threads. -/
theorem countAt_mono (h : ∀ b, p b → q b) : countAt p f ≤ countAt q f := by
  apply Finset.card_le_card
  intro i hi
  simp only [Finset.mem_filter] at hi ⊢
  exact ⟨hi.1, h _ hi.2⟩

omit [DecidableEq ι] in
/-- If at most one thread passes the test, two threads that pass it are one. -/
theorem eq_of_countAt_le_one (h : countAt p f ≤ 1) {i j : ι} (hi : p (f i))
    (hj : p (f j)) : i = j := by
  refine Finset.card_le_one.mp h i ?_ j ?_ <;> simpa

end Counting
