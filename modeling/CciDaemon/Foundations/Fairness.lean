import CciDaemon.Foundations.Transition
import Mathlib.Tactic.ByContra

/-!
# Foundations - Fair schedules

A schedule is an infinite run.  It says what a scheduler makes of the system, and may let the
system rest at any time.  A party is treated fairly if it takes a step whenever it could take
one from some time on.

Main results:

- Definition `Fair`: weak fairness to one party.
- Theorem `Schedule.invariant`: what every step keeps, every schedule keeps.
- Definition `Progress`: a rank that no step raises, and that falls when the party that helps
  takes a step.
- Theorem `Progress.eventually`: it leads every fair schedule to the goal.
-/

namespace Transition

variable {σ ε τ : Type*} {step : σ → ε → Option σ}

variable (step) in
/-- A state for each time, and the event between two of them unless the system rests. -/
structure Schedule where
  state : Nat → σ
  event : Nat → Option ε
  next : ∀ n, (event n).elim (some (state n)) (step (state n)) = some (state (n + 1))

namespace Schedule

variable (r : Schedule step)

/-- Every event of the schedule meets `ok` in the state in which it happens. -/
def Respects (ok : σ → ε → Prop) : Prop :=
  ∀ n e, r.event n = some e → ok (r.state n) e

/-- A party that could take a step that meets `ok` from some time on takes a step. -/
def Fair (ok : σ → ε → Prop) (acts : ε → Prop) : Prop :=
  ∀ n, (∀ m, n ≤ m → ∃ e, acts e ∧ ok (r.state m) e ∧ (step (r.state m) e).isSome = true) →
    ∃ m, n ≤ m ∧ ∃ e, r.event m = some e ∧ acts e

variable {r} {guard : σ → ε → Prop} {I : σ → Prop} {n : Nat}

/-- The system rests, or takes a step. -/
theorem rests_or_steps (r : Schedule step) (n : Nat) :
    r.event n = none ∧ r.state (n + 1) = r.state n ∨
      ∃ e, r.event n = some e ∧ step (r.state n) e = some (r.state (n + 1)) := by
  have hnext := r.next n
  cases hevent : r.event n with
  | none =>
      rw [hevent] at hnext
      exact Or.inl ⟨rfl, (Option.some.inj hnext).symm⟩
  | some e =>
      rw [hevent] at hnext
      exact Or.inr ⟨e, rfl, hnext⟩

/-- The invariant rule for schedules. -/
theorem invariant (hstep : ∀ s e t, I s → guard s e → step s e = some t → I t)
    (hr : r.Respects guard) (hn : I (r.state n)) {m : Nat} (hm : n ≤ m) : I (r.state m) := by
  induction m, hm using Nat.le_induction with
  | base => exact hn
  | succ m hm ih =>
      rcases r.rests_or_steps m with ⟨-, hsame⟩ | ⟨e, hevent, hnext⟩
      · rwa [hsame]
      · exact hstep _ e _ ih (hr m e hevent) hnext

/-! ### A run that rests at its end -/

variable {s t : σ} {es : List ε}

/-- A run passes through a state at each time. -/
theorem exists_run_take (hrun : run step s es = some t) (n : Nat) :
    ∃ u, run step s (es.take n) = some u := by
  rw [← es.take_append_drop n, run_append] at hrun
  obtain ⟨u, hu, -⟩ := Option.bind_eq_some_iff.mp hrun
  exact ⟨u, hu⟩

/-- The schedule of a run. -/
def ofRun (hrun : run step s es = some t) : Schedule step where
  state n := (run step s (es.take n)).getD s
  event n := es[n]?
  next n := by
    obtain ⟨u, hu⟩ := exists_run_take hrun n
    obtain ⟨v, hv⟩ := exists_run_take hrun (n + 1)
    have hnext := hv
    rw [List.take_add_one, run_append, hu] at hnext
    rw [hu, hv]
    cases hevent : es[n]? with
    | none =>
        rw [hevent] at hnext
        exact hnext
    | some e =>
        rw [hevent] at hnext
        obtain ⟨w, hstep, hw⟩ := run_cons_eq_some.mp hnext
        cases hw
        exact hstep

theorem Respects.ofRun {ok : σ → ε → Prop} (hrun : run step s es = some t)
    (hok : Guarded step ok s es) : (Schedule.ofRun hrun).Respects ok := by
  intro n e he
  obtain ⟨u, hu⟩ := exists_run_take hrun n
  have hevent : es[n]? = some e := he
  have hstate : (Schedule.ofRun hrun).state n = u := by simp [Schedule.ofRun, hu]
  rw [hstate]
  obtain ⟨hn, rfl⟩ := List.getElem?_eq_some_iff.mp hevent
  rw [← es.take_append_drop n, List.drop_eq_getElem_cons hn] at hok
  exact (hok.of_append_right hu).1

/-- It is fair to every party that cannot go on at its end. -/
theorem Fair.ofRun {ok : σ → ε → Prop} {acts : ε → Prop} (hrun : run step s es = some t)
    (hend : ∀ e, acts e → ok t e → step t e = none) : (Schedule.ofRun hrun).Fair ok acts := by
  intro n hcan
  have hstate : (Schedule.ofRun hrun).state (max n es.length) = t := by
    have hall : es.take (max n es.length) = es := List.take_of_length_le (le_max_right _ _)
    simp [Schedule.ofRun, hall, hrun]
  obtain ⟨e, hacts, hok, hsome⟩ := hcan (max n es.length) (le_max_left _ _)
  rw [hstate] at hok hsome
  rw [hend e hacts hok] at hsome
  cases hsome

end Schedule

variable (step) in
/-- How a system makes progress from `I` to `goal`.  No step raises the rank.  In every state
some party helps: it can take a step, it goes on to help until the rank falls, and when it takes
a step the rank falls. -/
structure Progress (guard ok : σ → ε → Prop) (acts : τ → ε → Prop) (I goal : σ → Prop) where
  rank : σ → Nat
  helps : τ → σ → Prop
  keeps : ∀ s e t, I s → guard s e → step s e = some t → goal t ∨ I t ∧ rank t ≤ rank s
  exists_helps : ∀ s, I s → ∃ i, helps i s
  exists_step : ∀ s i, I s → helps i s → ∃ e, acts i e ∧ ok s e ∧ (step s e).isSome = true
  goesOn : ∀ s e t i, I s → helps i s → guard s e → step s e = some t →
    goal t ∨ rank t < rank s ∨ helps i t ∧ ¬ acts i e

/-- Progress leads every fair schedule to the goal. -/
theorem Progress.eventually {guard ok : σ → ε → Prop} {acts : τ → ε → Prop} {I goal : σ → Prop}
    (P : Progress step guard ok acts I goal) {r : Schedule step} (hr : r.Respects guard)
    (hfair : ∀ i, r.Fair ok (acts i)) {n : Nat} (hn : I (r.state n)) :
    ∃ m, n ≤ m ∧ goal (r.state m) := by
  induction hrank : P.rank (r.state n) using Nat.strong_induction_on generalizing n with
  | h k ih =>
      by_contra hnever
      obtain ⟨i, hi⟩ := P.exists_helps _ hn
      have hno : ∀ m, n ≤ m → ¬ goal (r.state m) := fun m hm hgoal => hnever ⟨m, hm, hgoal⟩
      have hlow : ∀ m, n ≤ m → I (r.state m) → ¬ P.rank (r.state m) < k := by
        intro m hm hI hless
        obtain ⟨m', hm', hgoal⟩ := ih _ hless hI rfl
        exact hno m' (hm.trans hm') hgoal
      -- short of the goal and of a smaller rank, the party goes on to help
      have honward : ∀ m e, n ≤ m → I (r.state m) → P.rank (r.state m) ≤ k →
          P.helps i (r.state m) → r.event m = some e →
          step (r.state m) e = some (r.state (m + 1)) →
          I (r.state (m + 1)) ∧ P.rank (r.state (m + 1)) ≤ k ∧ P.helps i (r.state (m + 1)) ∧
            ¬ acts i e := by
        intro m e hm hI hle hhelps hevent hnext
        have hm' : n ≤ m + 1 := hm.trans m.le_succ
        obtain ⟨hI', hle'⟩ := (P.keeps _ e _ hI (hr m e hevent) hnext).resolve_left (hno _ hm')
        rcases P.goesOn _ e _ i hI hhelps (hr m e hevent) hnext with hgoal | hless | hhelps'
        · exact absurd hgoal (hno _ hm')
        · exact absurd (hless.trans_le hle) (hlow _ hm' hI')
        · exact ⟨hI', hle'.trans hle, hhelps'⟩
      have hforever : ∀ m, n ≤ m →
          I (r.state m) ∧ P.rank (r.state m) ≤ k ∧ P.helps i (r.state m) := by
        intro m hm
        induction m, hm using Nat.le_induction with
        | base => exact ⟨hn, hrank.le, hi⟩
        | succ m hm ihm =>
            obtain ⟨hI, hle, hhelps⟩ := ihm
            rcases r.rests_or_steps m with ⟨-, hsame⟩ | ⟨e, hevent, hnext⟩
            · rw [hsame]
              exact ⟨hI, hle, hhelps⟩
            · obtain ⟨hI', hle', hhelps', -⟩ := honward m e hm hI hle hhelps hevent hnext
              exact ⟨hI', hle', hhelps'⟩
      -- but fairness lets it take a step
      obtain ⟨m, hm, e, hevent, hacts⟩ := hfair i n fun m hm =>
        P.exists_step _ i (hforever m hm).1 (hforever m hm).2.2
      obtain ⟨hI, hle, hhelps⟩ := hforever m hm
      have hnext := r.next m
      rw [hevent] at hnext
      exact (honward m e hm hI hle hhelps hevent hnext).2.2.2 hacts

end Transition
