import CciDaemon.Daemon.Bootstrap

/-!
# Daemon - One deletion of the facade

`main` and the handler of the coordinator delete the same facade, and neither clears its pointer.
Each step that is not `Once` lets two of them do so.

Main results:

- Theorem `exists_run_deletes`: from the coordinator `main` comes to its own deletion.
- Theorem `step_doomed`: every step that is not `Once` can lead to a second deletion.
- Theorem `facade_deleted_once`: the facade is deleted at most once exactly in the runs of the
  other steps.
-/

namespace CciDaemon

open Transition

namespace Bootstrap

namespace Process

/-- The threads go on, without a signal or an exception. -/
def Calm : Event → Prop
  | .main outcome => outcome ≠ .throws
  | .signal _ _ => False
  | _ => True

variable {o : Options} {s t : Process}

/-! ## Second deletions -/

theorem step_main (hended : s.ended = none) (honMain : s.onMain = []) (outcome : Outcome) :
    step o s (.main outcome) = s.mainStep o outcome := by
  simp [step, hended, honMain]

/-- The main thread comes to its own deletion, and nothing else changes on the way. -/
def Reaches (o : Options) (s : Process) : Prop :=
  ∃ events, (∀ f ∈ events, Calm f) ∧ run (step o) s events = some (s.goto .deletes)

theorem Reaches.of_goto (hended : s.ended = none) (honMain : s.onMain = []) {outcome : Outcome}
    (hthrows : outcome ≠ .throws) {pc : MainPc} (hmain : s.mainStep o outcome = some (s.goto pc))
    (hrest : Reaches o (s.goto pc)) : Reaches o s := by
  obtain ⟨events, hcalm, hrun⟩ := hrest
  refine ⟨.main outcome :: events, ?_, ?_⟩
  · rintro f (_ | ⟨_, hf⟩)
    · exact hthrows
    · exact hcalm f hf
  · exact run_cons_eq_some.mpr ⟨_, (step_main hended honMain outcome).trans hmain, hrun⟩

theorem reaches_deletes (hpc : s.pc = .deletes) : Reaches o s := by
  refine ⟨[], by simp, ?_⟩
  rw [← hpc]
  rfl

theorem reaches_closes (hended : s.ended = none) (honMain : s.onMain = []) (hpc : s.pc = .closes) :
    Reaches o s :=
  .of_goto hended honMain (by simp : Outcome.succeeds ≠ .throws) (by simp [mainStep, hpc])
    (reaches_deletes rfl)

theorem reaches_changesDir (hended : s.ended = none) (honMain : s.onMain = [])
    (hpc : s.pc = .changesDir) : Reaches o s :=
  .of_goto hended honMain (by simp : Outcome.fails ≠ .throws) (by simp [mainStep, hpc])
    (reaches_deletes rfl)

theorem reaches_registers (hended : s.ended = none) (honMain : s.onMain = [])
    {signals : List Signal} (hpc : s.pc = .registers signals) : Reaches o s := by
  induction signals generalizing s with
  | nil =>
      have hrest : Reaches o (s.goto .changesDir) := reaches_changesDir hended honMain rfl
      have hne : Outcome.succeeds ≠ .throws := by simp
      exact .of_goto hended honMain hne (by simp [mainStep, hpc]) hrest
  | cons signal signals ih =>
      have hrest : Reaches o (s.goto (.registers signals)) := ih hended honMain rfl
      exact .of_goto hended honMain (by simp : Outcome.fails ≠ .throws) (by simp [mainStep, hpc])
        hrest

/-- From the coordinator the main thread comes to its own deletion. -/
theorem exists_run_deletes (o : Options) (hended : s.ended = none) (honMain : s.onMain = [])
    (hpc : s.pc.bootstrapped = true) (hfrees : s.pc ≠ .frees) (hexits : s.pc ≠ .exits) :
    Reaches o s := by
  cases hpc' : s.pc with
  | registers signals => exact reaches_registers hended honMain hpc'
  | changesDir => exact reaches_changesDir hended honMain hpc'
  | opensServices =>
      exact .of_goto hended honMain (by simp : Outcome.fails ≠ .throws) (by simp [mainStep, hpc'])
        (reaches_deletes rfl)
  | runs =>
      have hrest : Reaches o (s.goto .closes) := reaches_closes hended honMain rfl
      exact .of_goto hended honMain (by simp : Outcome.fails ≠ .throws) (by simp [mainStep, hpc'])
        hrest
  | closes => exact reaches_closes hended honMain hpc'
  | deletes => exact reaches_deletes hpc'
  | frees => exact absurd hpc' hfrees
  | exits => exact absurd hpc' hexits
  | _ => simp [hpc'] at hpc

/-- The threads can go on to a second deletion. -/
def Doomed (o : Options) (s : Process) : Prop :=
  ∃ events u, (∀ f ∈ events, Calm f) ∧ run (step o) s events = some u ∧
    u.ended = some .undefined

theorem Doomed.cons {e : Event} (he : Calm e) (hstep : step o s e = some t) (h : Doomed o t) :
    Doomed o s := by
  obtain ⟨events, u, hcalm, hrun, hu⟩ := h
  refine ⟨e :: events, u, ?_, run_cons_eq_some.mpr ⟨t, hstep, hrun⟩, hu⟩
  rintro f (_ | ⟨_, hf⟩)
  · exact he
  · exact hcalm f hf

theorem doomed_of_undefined (hended : s.ended = some .undefined) : Doomed o s :=
  ⟨[], s, by simp, rfl, hended⟩

theorem Reaches.doomed (h : Reaches o s) (hrest : Doomed o (s.goto .deletes)) : Doomed o s := by
  obtain ⟨events, hcalm, hrun⟩ := h
  obtain ⟨more, u, hcalm', hrun', hu⟩ := hrest
  refine ⟨events ++ more, u, ?_, ?_, hu⟩
  · intro f hf
    rcases List.mem_append.mp hf with hf | hf
    · exact hcalm f hf
    · exact hcalm' f hf
  · rw [run_append, hrun]
    exact hrun'

/-- The main thread in front of its deletion, when another one has begun. -/
theorem doomed_of_deletes (hended : s.ended = none) (honMain : s.onMain = [])
    (hpc : s.pc = .deletes) {p : Ptr} (hdf : s.df = some p)
    (hnot : s.facades.get p ≠ some .whole) : Doomed o s := by
  have hmain : s.mainStep o .succeeds =
      some ({ s with ended := some .undefined }.goto .frees) := by
    have hdestroyed : s.destroyFacade s.df = { s with ended := some .undefined } :=
      (congrArg s.destroyFacade hdf).trans (destroyFacade_undefined hnot)
    simp only [mainStep, hpc, hdestroyed]
  have hcalm : Calm (.main .succeeds) := by simp [Calm]
  exact .cons hcalm ((step_main hended honMain _).trans hmain) (doomed_of_undefined rfl)

/-- A handler on the main thread in front of its deletion. -/
theorem doomed_of_interrupted (hended : s.ended = none) {signal : Signal}
    {outer : List (Signal × HandlerPc)} (honMain : s.onMain = (signal, .deletes) :: outer)
    {p : Ptr} (hglobal : s.gFacadePtr = some p) (hnot : s.facades.get p ≠ some .whole) :
    Doomed o s := by
  have hdestroyed : s.destroyFacade s.gFacadePtr = { s with ended := some .undefined } :=
    (congrArg s.destroyFacade hglobal).trans (destroyFacade_undefined hnot)
  have hstep : step o s .interrupted = some { s with
      ended := some .undefined, onMain := (signal, .frees) :: outer } := by
    simp [step, hended, honMain, handleSignal, hdestroyed]
  have hcalm : Calm .interrupted := trivial
  exact .cons hcalm hstep (doomed_of_undefined rfl)

/-- An exception that leaves the `try` of `main` behind the construction of the facade. -/
theorem doomed_of_throws (h : Inv o s) (hended : s.ended = none) (honMain : s.onMain = [])
    {p : Ptr} (hdf : s.df = some p) (hstep : s.mainStep o .throws = some t) : Doomed o t := by
  have hinTry : s.pc.inTry = true ∧ t = s.goto .catches := by
    have hunset := h.unset
    cases hpc : s.pc <;> simp_all [mainStep]
  obtain ⟨hinTry, rfl⟩ := hinTry
  have hwhole : s.facades.get p = some .whole := by
    rw [h.facade p hdf, honMain]
    cases hpc : s.pc <;> simp_all
  have hcalm : Calm (.main .succeeds) := by simp [Calm]
  obtain ⟨dying, hdestroyed, hdying, -⟩ := destroyFacade_whole (s := s.goto .catches) hwhole
  have hcatches : (s.goto .catches).mainStep o .succeeds =
      some ({ s with facades := dying }.goto .catchFrees) := by
    have hdestroy : (s.goto .catches).destroyFacade s.df =
        { s.goto .catches with facades := dying } :=
      (congrArg (s.goto .catches).destroyFacade hdf).trans hdestroyed
    exact congrArg (fun u => some (u.goto .catchFrees)) hdestroy
  obtain ⟨freed, hfreed, hnone, -⟩ :=
    freeFacade_dying (s := { s with facades := dying }.goto .catchFrees) hdying
  have hfrees : ({ s with facades := dying }.goto .catchFrees).mainStep o .succeeds =
      some ({ s with facades := freed }.goto .deletes) := by
    have hfree : ({ s with facades := dying }.goto .catchFrees).freeFacade s.df =
        { s.goto .catchFrees with facades := freed } :=
      (congrArg ({ s with facades := dying }.goto .catchFrees).freeFacade hdf).trans hfreed
    exact congrArg (fun u => some (u.goto .deletes)) hfree
  have hrest : Doomed o ({ s with facades := freed }.goto .deletes) :=
    doomed_of_deletes hended honMain rfl hdf (by simp [Process.goto, hnone])
  refine .cons hcalm ((step_main (s := s.goto .catches) hended honMain _).trans hcatches) ?_
  exact .cons hcalm
    ((step_main (s := { s with facades := dying }.goto .catchFrees) hended honMain _).trans hfrees)
    hrest

/-- The deletion of a handler on another thread. -/
theorem step_other (hended : s.ended = none) (hothers : s.onOthers = [.deletes])
    (hdestroyed : s.destroyFacade s.gFacadePtr = t) :
    step o s (.other 0) = some { t with onOthers := [.frees] } := by
  simp [step, hended, hothers, handleSignal, hdestroyed]

/-- A handler on another thread, before a deletion of the facade has begun or after that. -/
theorem doomed_of_other (hended : s.ended = none) (hothers : s.onOthers = [.deletes]) {p : Ptr}
    (hp : s.gFacadePtr = some p) (hdf : s.df = some p) (hpc : s.pc.bootstrapped = true)
    (hstays : s.facades.get p = some .whole →
      s.pc ≠ .frees ∧ s.pc ≠ .exits ∧ ∀ handler ∈ s.onMain, handler.2 = .deletes) :
    Doomed o s := by
  have hcalm : Calm (.other 0) := trivial
  by_cases hwhole : s.facades.get p = some .whole
  · -- it begins a deletion, and the main thread does so again
    obtain ⟨hfrees, hexits, hall⟩ := hstays hwhole
    obtain ⟨facades, hdestroyed, hdying, -⟩ := destroyFacade_whole hwhole
    have hnot : facades.get p ≠ some .whole := by simp [hdying]
    apply Doomed.cons hcalm (step_other hended hothers ((congrArg _ hp).trans hdestroyed))
    by_cases honMain : s.onMain = []
    · have hreaches : Reaches o { s with facades := facades, onOthers := [.frees] } :=
        exists_run_deletes o hended honMain hpc hfrees hexits
      exact hreaches.doomed (doomed_of_deletes hended honMain rfl hdf hnot)
    · obtain ⟨⟨signal, pc⟩, outer, hhandlers⟩ := List.exists_cons_of_ne_nil honMain
      obtain rfl : pc = .deletes := hall (signal, pc) (by simp [hhandlers])
      exact doomed_of_interrupted hended hhandlers hp hnot
  · have hdestroyed := (congrArg s.destroyFacade hp).trans (destroyFacade_undefined hwhole)
    exact .cons hcalm (step_other hended hothers hdestroyed) (doomed_of_undefined rfl)

/-- A handler that is entered when a deletion of the facade has begun, or on another thread. -/
theorem doomed_of_signal (h : Inv o s) (hended : s.ended = none) {signal : Signal} {onMain : Bool}
    (hbad : ¬ Once s (.signal signal onMain)) (hstep : s.deliver signal onMain = some t) :
    Doomed o t := by
  simp only [Once, Classical.not_imp] at hbad
  obtain ⟨hregistered, hsegv, hbad⟩ := hbad
  have hne : s.registered ≠ [] := List.ne_nil_of_mem hregistered
  obtain ⟨p, hp⟩ := Option.ne_none_iff_exists'.mp (h.stored (Or.inl hne))
  have hdf := h.global p hp
  simp only [deliver, hregistered, if_true, hsegv, if_false] at hstep
  cases onMain with
  | true =>
      have hnot : s.facades.get p ≠ some .whole := by
        intro hwhole
        exact hbad ⟨rfl, fun q hq => Option.some.inj (hp.symm.trans hq) ▸ hwhole⟩
      simp only [if_true] at hstep
      split at hstep
      · cases hstep
      · obtain rfl := Option.some.inj hstep
        exact doomed_of_interrupted hended rfl hp hnot
  | false =>
      simp only [Bool.false_eq_true, if_false, h.onOthers, List.nil_append,
        Option.some.injEq] at hstep
      subst hstep
      exact doomed_of_other hended rfl hp hdf (h.bootstrapped hne) fun hwhole =>
        h.of_whole hdf hwhole

/-- Every other step can lead to a second deletion. -/
theorem step_doomed {e : Event} (h : Inv o s) (hbad : ¬ Once s e) (hstep : step o s e = some t) :
    Doomed o t := by
  unfold step at hstep
  split at hstep
  · cases hstep
  · rename_i hended
    have hended : s.ended = none := by simpa using hended
    cases e with
    | main outcome =>
        dsimp only at hstep
        split at hstep
        · rename_i honMain
          cases outcome with
          | throws =>
              obtain ⟨p, hdf⟩ := Option.ne_none_iff_exists'.mp hbad
              exact doomed_of_throws h hended honMain hdf hstep
          | _ => exact absurd trivial hbad
        · cases hstep
    | signal signal onMain => exact doomed_of_signal h hended hbad hstep
    | interrupted => exact absurd trivial hbad
    | other i => exact absurd trivial hbad

theorem Calm.once {e : Event} (he : Calm e) (s : Process) : Once s e := by
  cases e with
  | main outcome =>
      cases outcome with
      | throws => exact absurd rfl he
      | _ => trivial
  | signal signal onMain => exact he.elim
  | _ => trivial

/-! ## Runs -/

theorem run_inv {events : List Event} (h : Inv o s) (hok : Guarded (step o) Once s events)
    (hrun : run (step o) s events = some t) : Inv o t :=
  hok.invariant (fun _ _ _ h hok hstep => step_inv h hok hstep) h hrun

/-- The facade is deleted once.  In every run of the process in which no exception leaves the
`try` of `main` behind the construction of the facade, and the handler of `SIGINT` and `SIGTERM`
is entered on the main thread only and before a deletion of the facade has begun, none is begun
after that; and a process with `-a` that exits with status 0 leaves no facade, unless it is a
parent behind a fork of `daemonize_`, which it is not with `-t`.  The condition is exact: any other
step of such a run can lead to a second deletion, without another signal or exception. -/
theorem facade_deleted_once {events : List Event}
    (hok : Guarded (step o) Once start events) (hrun : run (step o) start events = some s) :
    s.ended ≠ some .undefined ∧
      (o.a = true → s.ended.bind End.status = some 0 →
        (o.t = false ∧ s.ended = some .parent) ∨ ∀ p, ¬ s.facades.Live p) ∧
      ∀ e t, step o s e = some t → (¬ Once s e ↔ Doomed o t) := by
  have h := run_inv (start_inv o) hok hrun
  refine ⟨h.defined, fun ha hstatus => ?_, fun e t hstep =>
    ⟨fun hbad => step_doomed h hbad hstep, ?_⟩⟩
  · obtain ⟨ended, hended, hzero⟩ := Option.bind_eq_some_iff.mp hstatus
    cases ended with
    | exit status =>
        obtain rfl : status = 0 := Option.some.inj hzero
        exact Or.inr (h.exited ha hended)
    | parent => exact Or.inl ⟨h.daemonizes (Or.inr hended), hended⟩
    | killed signal | undefined => cases hzero
  rintro ⟨more, u, hcalm, hmore, hu⟩ honce
  have hcalms : Guarded (step o) (fun _ f => Calm f) t more := Guarded.of_forall hcalm
  have hinv : Inv o u := hcalms.invariant
    (fun s f _ h hcalm hstep => step_inv h (hcalm.once s) hstep) (step_inv h honce hstep) hmore
  exact hinv.defined hu

/-- Steps without a signal or an exception meet the side condition. -/
theorem guarded_calm {events rest : List Event} (hcalm : ∀ f ∈ events, Calm f)
    (hrest : ∀ t, run (step o) s events = some t → Guarded (step o) Once t rest) :
    Guarded (step o) Once s (events ++ rest) := by
  induction events generalizing s with
  | nil => exact hrest s rfl
  | cons e events ih =>
      refine ⟨(hcalm e (by simp)).once s, fun t hstep => ?_⟩
      apply ih fun f hf => hcalm f (by simp [hf])
      intro u hrun
      exact hrest u (run_cons_eq_some.mpr ⟨t, hstep, hrun⟩)

/-- The coordinator runs in a terminal until `SIGTERM` arrives on the main thread. -/
def terminated : List Event :=
  List.replicate 12 (.main .succeeds) ++ .signal .sigterm true :: List.replicate 5 .interrupted

theorem terminated_once : Guarded (step ⟨true, true⟩) Once start terminated := by
  apply guarded_calm
  · intro f hf
    rw [List.eq_of_mem_replicate hf]
    simp [Calm]
  · intro t hrun
    obtain rfl := Option.some.inj hrun
    refine ⟨fun _ _ => ⟨rfl, fun p hp => ?_⟩, fun u _ => ?_⟩
    · obtain rfl := Option.some.inj hp
      decide
    · have hcalm : Guarded (step ⟨true, true⟩) Once u (List.replicate 5 .interrupted ++ []) :=
        guarded_calm (fun f hf => List.eq_of_mem_replicate hf ▸ trivial) fun _ _ => trivial
      rwa [List.append_nil] at hcalm

theorem facade_deleted_once_terminated :
    ∃ s, run (step ⟨true, true⟩) start terminated = some s ∧ s.ended = some (.exit 0) ∧
      ∀ p, ¬ s.facades.Live p := by
  obtain ⟨s, hrun, hended⟩ : ∃ s, run (step ⟨true, true⟩) start terminated = some s ∧
      s.ended = some (.exit 0) := ⟨_, rfl, rfl⟩
  refine ⟨s, hrun, hended, ?_⟩
  have hstatus : s.ended.bind End.status = some 0 := by rw [hended]; rfl
  rcases (facade_deleted_once terminated_once hrun).2.1 rfl hstatus with ⟨ht, -⟩ | hnone
  · cases ht
  · exact hnone

end Process

end Bootstrap

end CciDaemon
