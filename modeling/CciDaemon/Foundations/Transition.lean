import Mathlib.Data.List.Basic
import Mathlib.Data.List.Infix

/-!
# Foundations - Runs of event-driven systems

A concurrent component is described by one partial function `step`: the state
after an event, or {lit}`none` when the event is not enabled.  Everything that the
environment decides (the scheduler, a system call, a remote party) is carried by
the event, so a run is just a list of events and a concrete run can be evaluated.

Main results:

- Theorem `run_append`: runs compose.
- Theorem `run_invariant`: a property kept by every step holds after every run.
- Theorem `Guarded.invariant`: a property kept by every step that meets a side
  condition holds after every run whose steps all meet it.
- Theorem `Guarded.always`: the same, for every state the run passes through.
- Theorems `always_iff_guarded` and `always_iff_guarded_of_enabled`: and for exactly
  these runs, if every step that does not meet the condition does harm.
- Theorem `safely_iff_guarded`: a run is safe exactly when its steps all meet the side
  condition, if every step that does not meet it does harm.
- Theorems `Guarded.simulates` and `run_simulates`: runs that match step by step.
- Theorem `run_variant`: how many steps of a kind a run has.
- Theorem `emitted_invariant`: a property of the state and of what was emitted so far
  that every step keeps holds after every run.
-/

namespace Transition

/-- The parties of a small concrete run. -/
inductive Party
  | first
  | second
deriving DecidableEq

variable {σ ε : Type*} (step : σ → ε → Option σ)

/-- The state after the events of a run, or {lit}`none` if one of them is not
enabled when its turn comes. -/
def run : σ → List ε → Option σ
  | s, [] => some s
  | s, e :: es => (step s e).bind fun t => run t es

/-- What the steps of a run emit, in order. -/
def emitted {ο : Type*} (emit : σ → ε → List ο) : σ → List ε → List ο
  | _, [] => []
  | s, e :: es => emit s e ++ (step s e).elim [] fun t => emitted emit t es

/-- Every event of a run meets `ok` in the state in which it happens. -/
def Guarded (ok : σ → ε → Prop) : σ → List ε → Prop
  | _, [] => True
  | s, e :: es => ok s e ∧ ∀ t, step s e = some t → Guarded ok t es

/-- A property of every state that a run passes through, its first and its last
included. -/
def Always (P : σ → Prop) (s : σ) (es : List ε) : Prop :=
  ∀ pre, pre <+: es → ∀ t, run step s pre = some t → P t

/-- No beginning of a run is stuck, and each of them ends in a state with `P`. -/
def Safely (P : σ → Prop) (s : σ) (es : List ε) : Prop :=
  ∀ pre, pre <+: es → ∃ t, run step s pre = some t ∧ P t

variable {step}

@[simp] theorem run_nil (s : σ) : run step s [] = some s := rfl

theorem run_cons (s : σ) (e : ε) (es : List ε) :
    run step s (e :: es) = (step s e).bind fun t => run step t es := rfl

/-- A run that starts with `e` takes the step `e` and goes on from there. -/
theorem run_cons_eq_some {s u : σ} {e : ε} {es : List ε} :
    run step s (e :: es) = some u ↔ ∃ t, step s e = some t ∧ run step t es = some u := by
  simp [run_cons, Option.bind_eq_some_iff]

/-- A run of one step. -/
theorem run_one {s t : σ} {e : ε} (hstep : step s e = some t) : run step s [e] = some t :=
  run_cons_eq_some.mpr ⟨t, hstep, rfl⟩

/-- A first step and a run behind it. -/
theorem exists_run_cons {s t : σ} {e : ε} {es : List ε} {Q : σ → Prop} (hstep : step s e = some t)
    (hrest : ∃ u, run step t es = some u ∧ Q u) : ∃ u, run step s (e :: es) = some u ∧ Q u := by
  obtain ⟨u, hrun, hu⟩ := hrest
  exact ⟨u, run_cons_eq_some.mpr ⟨t, hstep, hrun⟩, hu⟩

/-- Runs compose. -/
theorem run_append (s : σ) (es fs : List ε) :
    run step s (es ++ fs) = (run step s es).bind fun t => run step t fs := by
  induction es generalizing s with
  | nil => rfl
  | cons e es ih =>
      cases hstep : step s e with
      | none => simp [run_cons, hstep]
      | some t => simp [run_cons, hstep, ih]

/-- The invariant rule: what every step keeps, every run keeps. -/
theorem run_invariant {I : σ → Prop}
    (hstep : ∀ s e t, I s → step s e = some t → I t)
    {s t : σ} {es : List ε} (hs : I s) (hrun : run step s es = some t) : I t := by
  induction es generalizing s with
  | nil =>
      cases hrun
      exact hs
  | cons e es ih =>
      obtain ⟨u, hu, hrest⟩ := run_cons_eq_some.mp hrun
      exact ih (hstep s e u hs hu) hrest

/-- The invariant rule for what a run emits behind `os`. -/
theorem emitted_invariant {ο : Type*} {emit : σ → ε → List ο} {I : σ → List ο → Prop}
    (hstep : ∀ s os e t, I s os → step s e = some t → I t (os ++ emit s e))
    {s t : σ} {es : List ε} {os : List ο} (hs : I s os) (hrun : run step s es = some t) :
    I t (os ++ emitted step emit s es) := by
  induction es generalizing s os with
  | nil =>
      cases hrun
      simpa [emitted] using hs
  | cons e es ih =>
      obtain ⟨u, hu, hrest⟩ := run_cons_eq_some.mp hrun
      have htail := ih (hstep s os e u hs hu) hrest
      simpa [emitted, hu] using htail

/-- What a run emits is emitted in one of its steps. -/
theorem exists_mem_of_mem_emitted {ο : Type*} {emit : σ → ε → List ο} {s : σ} {es : List ε}
    {o : ο} (ho : o ∈ emitted step emit s es) : ∃ t, ∃ e ∈ es, o ∈ emit t e := by
  induction es generalizing s with
  | nil => cases ho
  | cons e es ih =>
      rcases List.mem_append.mp ho with hfirst | hrest
      · exact ⟨s, e, List.mem_cons_self, hfirst⟩
      · cases hstep : step s e with
        | none => simp [hstep] at hrest
        | some t =>
            rw [hstep] at hrest
            obtain ⟨u, f, hf, ho⟩ := ih hrest
            exact ⟨u, f, List.mem_cons_of_mem e hf, ho⟩

/-- A side condition on a run is one on each of its beginnings. -/
theorem Guarded.of_append {ok : σ → ε → Prop} {s : σ} {es fs : List ε}
    (h : Guarded step ok s (es ++ fs)) : Guarded step ok s es := by
  induction es generalizing s with
  | nil => trivial
  | cons e es ih => exact ⟨h.1, fun t ht => ih (h.2 t ht)⟩

/-- And on what comes behind it. -/
theorem Guarded.of_append_right {ok : σ → ε → Prop} {s t : σ} {es fs : List ε}
    (h : Guarded step ok s (es ++ fs)) (hrun : run step s es = some t) :
    Guarded step ok t fs := by
  induction es generalizing s with
  | nil =>
      cases hrun
      exact h
  | cons e es ih =>
      obtain ⟨u, hu, hrest⟩ := run_cons_eq_some.mp hrun
      exact ih (h.2 u hu) hrest

theorem Guarded.cons {ok : σ → ε → Prop} {s t : σ} {e : ε} {es : List ε} (hok : ok s e)
    (hstep : step s e = some t) (h : Guarded step ok t es) : Guarded step ok s (e :: es) := by
  refine ⟨hok, fun u hu => ?_⟩
  obtain rfl : t = u := Option.some.inj (hstep.symm.trans hu)
  exact h

/-- A side condition on the events alone. -/
theorem Guarded.of_forall {ok : ε → Prop} {s : σ} {es : List ε} (h : ∀ e ∈ es, ok e) :
    Guarded step (fun _ e => ok e) s es := by
  induction es generalizing s with
  | nil => trivial
  | cons e es ih =>
      exact ⟨h e List.mem_cons_self, fun t _ => ih fun f hf => h f (List.mem_cons_of_mem e hf)⟩

/-- The invariant rule under a side condition on the steps. -/
theorem Guarded.invariant {ok : σ → ε → Prop} {I : σ → Prop}
    (hstep : ∀ s e t, I s → ok s e → step s e = some t → I t)
    {s t : σ} {es : List ε} (hs : I s) (hok : Guarded step ok s es)
    (hrun : run step s es = some t) : I t := by
  induction es generalizing s with
  | nil =>
      cases hrun
      exact hs
  | cons e es ih =>
      obtain ⟨u, hu, hrest⟩ := run_cons_eq_some.mp hrun
      exact ih (hstep s e u hs hok.1 hu) (hok.2 u hu) hrest

/-- The simulation rule: when every step that meets a side condition is matched by a run of
another system, so is every run whose steps all meet it. -/
theorem Guarded.simulates {τ ζ : Type*} {step' : τ → ζ → Option τ} {rel : σ → τ → Prop}
    {image : σ → ε → List ζ} {ok : σ → ε → Prop}
    (hstep : ∀ s e t p, rel s p → ok s e → step s e = some t →
      ∃ q, run step' p (image s e) = some q ∧ rel t q)
    {s t : σ} {p : τ} {es : List ε} (hok : Guarded step ok s es) (hs : rel s p)
    (hrun : run step s es = some t) :
    ∃ q, run step' p (emitted step image s es) = some q ∧ rel t q := by
  induction es generalizing s p with
  | nil =>
      cases hrun
      exact ⟨p, rfl, hs⟩
  | cons e es ih =>
      obtain ⟨u, hu, hrest⟩ := run_cons_eq_some.mp hrun
      obtain ⟨q, hq, hrel⟩ := hstep s e u p hs hok.1 hu
      obtain ⟨r, hr, hend⟩ := ih (hok.2 u hu) hrel hrest
      refine ⟨r, ?_, hend⟩
      rw [emitted, hu, run_append, hq]
      exact hr

/-- The same without a side condition. -/
theorem run_simulates {τ ζ : Type*} {step' : τ → ζ → Option τ} {rel : σ → τ → Prop}
    {image : σ → ε → List ζ}
    (hstep : ∀ s e t p, rel s p → step s e = some t →
      ∃ q, run step' p (image s e) = some q ∧ rel t q)
    {s t : σ} {p : τ} {es : List ε} (hs : rel s p) (hrun : run step s es = some t) :
    ∃ q, run step' p (emitted step image s es) = some q ∧ rel t q := by
  have hok : Guarded step (fun _ _ => True) s es := Guarded.of_forall fun _ _ => trivial
  exact hok.simulates (fun s e t p hrel _ hstep' => hstep s e t p hrel hstep') hs hrun

/-- The variant rule: what every step of a kind makes smaller, and no step but those of
another kind makes larger, bounds how many steps of the first kind a run has. -/
theorem Guarded.variant {ok : σ → ε → Prop} {I : σ → Prop} {variant : σ → Nat}
    {counted raising : ε → Bool} {k : Nat}
    (hstep : ∀ s e t, I s → ok s e → step s e = some t → I t ∧
      variant t + (if counted e then 1 else 0) ≤ variant s + (if raising e then k else 0))
    {s t : σ} {es : List ε} (hok : Guarded step ok s es) (hs : I s)
    (hrun : run step s es = some t) :
    variant t + es.countP counted ≤ variant s + k * es.countP raising := by
  induction es generalizing s with
  | nil =>
      cases hrun
      exact Nat.le_refl _
  | cons e es ih =>
      obtain ⟨u, hu, hrest⟩ := run_cons_eq_some.mp hrun
      obtain ⟨hinv, hless⟩ := hstep s e u hs hok.1 hu
      have hmore := ih (hok.2 u hu) hinv hrest
      have hraised : k * (es.countP raising + if raising e then 1 else 0) =
          k * es.countP raising + if raising e then k else 0 := by
        rw [Nat.mul_add]
        split <;> simp
      rw [List.countP_cons, List.countP_cons, hraised]
      omega

/-- The same without a side condition and without steps that make the variant larger. -/
theorem run_variant {I : σ → Prop} {variant : σ → Nat} {counted : ε → Bool}
    (hstep : ∀ s e t, I s → step s e = some t →
      I t ∧ variant t + (if counted e then 1 else 0) ≤ variant s)
    {s t : σ} {es : List ε} (hs : I s) (hrun : run step s es = some t) :
    variant t + es.countP counted ≤ variant s := by
  have hok : Guarded step (fun _ _ => True) s es := Guarded.of_forall fun _ _ => trivial
  have hbound : variant t + es.countP counted ≤ variant s + 0 * es.countP fun _ => false :=
    hok.variant (fun s e t hs _ hstep' => by simpa using hstep s e t hs hstep') hs hrun
  simpa using hbound

/-- An invariant that implies `P` proves `P` of every state of a guarded run. -/
theorem Guarded.always {ok : σ → ε → Prop} {I P : σ → Prop}
    (hstep : ∀ s e t, I s → ok s e → step s e = some t → I t)
    (hP : ∀ s, I s → P s) {s : σ} {es : List ε} (hs : I s)
    (hok : Guarded step ok s es) : Always step P s es := by
  rintro pre ⟨rest, rfl⟩ t hrun
  exact hP t (hok.of_append.invariant hstep hs hrun)

/-- A run through which `P` always holds starts in a state with `P`. -/
theorem Always.head {P : σ → Prop} {s : σ} {es : List ε}
    (h : Always step P s es) : P s :=
  h [] (List.nil_prefix) s rfl

/-- What always holds of a run always holds of the rest of it after a step. -/
theorem Always.tail {P : σ → Prop} {s t : σ} {e : ε} {es : List ε}
    (h : Always step P s (e :: es)) (hstep : step s e = some t) :
    Always step P t es := by
  intro pre hpre u hu
  apply h (e :: pre) (by simpa using hpre) u
  exact run_cons_eq_some.mpr ⟨t, hstep, hu⟩

/-- When the good steps keep the invariant and every other step breaks `P` at once, `P`
holds throughout exactly the runs of good steps. -/
theorem always_iff_guarded {ok : σ → ε → Prop} {I P : σ → Prop} (hP : ∀ s, I s → P s)
    (hgood : ∀ s e t, I s → ok s e → step s e = some t → I t)
    (hbad : ∀ s e t, I s → ¬ ok s e → step s e = some t → ¬ P t)
    {s u : σ} {es : List ε} (hs : I s) (hrun : run step s es = some u) :
    Always step P s es ↔ Guarded step ok s es := by
  refine ⟨fun h => ?_, fun h => h.always hgood hP hs⟩
  induction es generalizing s with
  | nil => trivial
  | cons e es ih =>
      obtain ⟨t, hstep, hrest⟩ := run_cons_eq_some.mp hrun
      have htail := h.tail hstep
      have hok : ok s e := by
        by_contra hnot
        exact hbad s e t hs hnot hstep htail.head
      exact Guarded.cons hok hstep (ih (hgood s e t hs hok hstep) hrest htail)

/-- The same when no other step is stuck, for every list of events. -/
theorem always_iff_guarded_of_enabled {ok : σ → ε → Prop} {I P : σ → Prop}
    (hP : ∀ s, I s → P s) (hgood : ∀ s e t, I s → ok s e → step s e = some t → I t)
    (hbad : ∀ s e, I s → ¬ ok s e → ∃ t, step s e = some t ∧ ¬ P t)
    {s : σ} {es : List ε} (hs : I s) : Always step P s es ↔ Guarded step ok s es := by
  refine ⟨fun h => ?_, fun h => h.always hgood hP hs⟩
  induction es generalizing s with
  | nil => trivial
  | cons e es ih =>
      have hok : ok s e := by
        by_contra hnot
        obtain ⟨t, hstep, ht⟩ := hbad s e hs hnot
        exact ht (h.tail hstep).head
      exact ⟨hok, fun t hstep => ih (hgood s e t hs hok hstep) (h.tail hstep)⟩

theorem Safely.head {P : σ → Prop} {s : σ} {es : List ε} (h : Safely step P s es) :
    P s := by
  obtain ⟨t, hrun, ht⟩ := h [] List.nil_prefix
  cases hrun
  exact ht

/-- A safe run starts with a step, and is safe from there on. -/
theorem Safely.tail {P : σ → Prop} {s : σ} {e : ε} {es : List ε}
    (h : Safely step P s (e :: es)) : ∃ t, step s e = some t ∧ Safely step P t es := by
  obtain ⟨t, hrun, -⟩ := h [e] (by simp)
  obtain ⟨u, hstep, -⟩ := run_cons_eq_some.mp hrun
  refine ⟨u, hstep, fun pre hpre => ?_⟩
  obtain ⟨v, hv, hP⟩ := h (e :: pre) (by simpa using hpre)
  obtain ⟨u', hstep', hrest⟩ := run_cons_eq_some.mp hv
  obtain rfl : u = u' := Option.some.inj (hstep.symm.trans hstep')
  exact ⟨v, hrest, hP⟩

theorem Safely.cons {P : σ → Prop} {s t : σ} {e : ε} {es : List ε} (hs : P s)
    (hstep : step s e = some t) (h : Safely step P t es) : Safely step P s (e :: es) := by
  intro pre hpre
  cases pre with
  | nil => exact ⟨s, rfl, hs⟩
  | cons f pre =>
      obtain ⟨rfl, htail⟩ := List.cons_prefix_cons.mp hpre
      obtain ⟨u, hu, hP⟩ := h pre htail
      exact ⟨u, run_cons_eq_some.mpr ⟨t, hstep, hu⟩, hP⟩

/-- When the good steps keep the invariant and every other step is stuck or breaks `P`
at once, the safe runs are those of good steps. -/
theorem safely_iff_guarded {ok : σ → ε → Prop} {I P : σ → Prop} (hP : ∀ s, I s → P s)
    (hgood : ∀ s e, I s → ok s e → ∃ t, step s e = some t ∧ I t)
    (hbad : ∀ s e t, I s → ¬ ok s e → step s e = some t → ¬ P t)
    {s : σ} {es : List ε} (hs : I s) : Safely step P s es ↔ Guarded step ok s es := by
  induction es generalizing s with
  | nil =>
      refine ⟨fun _ => trivial, fun _ pre hpre => ?_⟩
      obtain rfl := List.prefix_nil.mp hpre
      exact ⟨s, rfl, hP s hs⟩
  | cons e es ih =>
      constructor
      · intro h
        obtain ⟨t, hstep, hrest⟩ := h.tail
        have hok : ok s e := by
          by_contra hnot
          exact hbad s e t hs hnot hstep hrest.head
        obtain ⟨u, hstep', hu⟩ := hgood s e hs hok
        obtain rfl : t = u := Option.some.inj (hstep.symm.trans hstep')
        refine ⟨hok, fun v hv => ?_⟩
        obtain rfl : t = v := Option.some.inj (hstep.symm.trans hv)
        exact (ih hu).mp hrest
      · rintro ⟨hok, hrest⟩
        obtain ⟨t, hstep, ht⟩ := hgood s e hs hok
        exact Safely.cons (hP s hs) hstep ((ih ht).mpr (hrest t hstep))

end Transition
