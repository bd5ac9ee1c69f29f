import CciDaemon.Dispatch.Callers
import CciDaemon.Pool.Delivery

/-!
# Dispatch - The pool behind the dispatcher

The dispatcher's model has the workers of the pool at a handler or at none, and a queue of
handlers.  The pool's model has the loop of `svc` in full, with the numbers of the entries.
Here the second runs along with the first.

Main results:

- Definition `Serves`: the pool is where the dispatcher has its workers and its queue.
- Theorem `step_simulates`: every step of the dispatcher is matched by steps of the pool.
- Theorem `dispatcher_refines_pool`: every run in thread pool mode is one of the pool, and
  its handlers are processed once each, in the order in which they were handed over.
-/

namespace CciDaemon

open Transition Counting

namespace Dispatch

variable {ι η : Type}

/-- Where the dispatcher has a worker that is at a place of `svc`. -/
def served : ThreadPool.WorkerPc η → Option (WorkerPc η)
  | .waiting => some .idle
  | .handling _ h => some (.processing h)
  | .closing _ h => some (.closing h)
  | _ => none

/-- The pool is where the dispatcher has its workers and its queue. -/
structure Serves (s : Dispatcher ι η) (p : ThreadPool.Pool ι η) : Prop where
  queue : p.queue = s.queue.map some
  worker : ∀ w, served (p.pc w) = some (s.worker w)

namespace Serves

variable {s : Dispatcher ι η} {p : ThreadPool.Pool ι η} {w : ι} {h : η}

theorem waiting (hp : Serves s p) (hworker : s.worker w = .idle) : p.pc w = .waiting := by
  have hserved := hp.worker w
  rw [hworker] at hserved
  cases hpc : p.pc w <;> simp_all [served]

theorem handling (hp : Serves s p) (hworker : s.worker w = .processing h) :
    ∃ entry, p.pc w = .handling entry h := by
  have hserved := hp.worker w
  rw [hworker] at hserved
  cases hpc : p.pc w <;> simp_all [served]

theorem closing (hp : Serves s p) (hworker : s.worker w = .closing h) :
    ∃ entry, p.pc w = .closing entry h := by
  have hserved := hp.worker w
  rw [hworker] at hserved
  cases hpc : p.pc w <;> simp_all [served]

/-- A worker that goes to another place. -/
theorem move [DecidableEq ι] {s' : Dispatcher ι η} {pc : ThreadPool.WorkerPc η} {place : WorkerPc η}
    {q : ThreadPool.Pool ι η} (hp : Serves s p) (hplace : served pc = some place)
    (hpc : q.pc = Function.update p.pc w pc)
    (hworker : s'.worker = Function.update s.worker w place)
    (hqueue : q.queue = s'.queue.map some) : Serves s' q := by
  refine ⟨hqueue, fun v => ?_⟩
  rw [hpc, hworker]
  by_cases hv : v = w
  · subst hv
    rw [Function.update_self, Function.update_self, hplace]
  · rw [Function.update_of_ne hv, Function.update_of_ne hv, hp.worker]

end Serves

namespace Dispatcher

/-- The steps of the pool in a step of the dispatcher. -/
def poolSteps (s : Dispatcher ι η) : Event ι η → List (ThreadPool.Event ι η)
  | .enqueues ok =>
      match s.reactor with
      | .handing h => [.enqueue h ok]
      | _ => []
  | .dequeues w => [.getq w, .handleInput w]
  | .workerProcesses w rval _ => [.handleInputReturns w rval]
  | .workerCloses w => [.handleCloseReturns w]
  | _ => []

variable [DecidableEq ι] [DecidableEq η] {s s' : Dispatcher ι η} {p : ThreadPool.Pool ι η}
  {e : Event ι η}

/-- A step in which the pool makes none leaves the queue and the workers as they are. -/
theorem frame_of_poolSteps {mode : Concurrency} (hstep : step mode s e = some s')
    (hnone : s.poolSteps e = []) : s'.queue = s.queue ∧ s'.worker = s.worker := by
  cases e with
  | dequeues w | workerProcesses w rval registered | workerCloses w => cases hnone
  | enqueues ok =>
      simp only [step] at hstep
      split at hstep
      · rename_i h hreactor
        simp [poolSteps, hreactor] at hnone
      · cases hstep
  | opens h ok =>
      obtain ⟨-, -, rfl⟩ := step_opens hstep
      exact ⟨rfl, rfl⟩
  | dispatches h | closes h | expires h | reactorProcesses rval | reactorCloses
  | threadProcesses h rval | threadCloses h | decides recognised idle | removes | destroys =>
      simp only [step] at hstep
      repeat' split at hstep
      all_goals first | cases hstep <;> exact ⟨rfl, rfl⟩

omit [DecidableEq η] in
/-- A worker of the pool takes out a handler and calls `handle_input`. -/
theorem run_getq {w : ι} {h : η} {queue : List (Option η)} (hpc : p.pc w = .waiting)
    (hqueue : p.queue = some h :: queue) :
    ∃ q, run ThreadPool.Pool.step p [.getq w, .handleInput w] = some q ∧
      q.pc = Function.update p.pc w (.handling p.history.dequeued.length h) ∧
      q.queue = queue := by
  refine exists_run_cons (by simp only [ThreadPool.Pool.step, hpc, hqueue]; rfl)
    (exists_run_cons (by simp [ThreadPool.Pool.step, ThreadPool.Pool.move,
      ThreadPool.Pool.behindGetq]; rfl) ⟨_, rfl, ?_, rfl⟩)
  simp

/-- Every step of the dispatcher is matched by steps of the pool. -/
theorem step_simulates (hp : Serves s p) (hstep : step .threadPool s e = some s') :
    ∃ q, run ThreadPool.Pool.step p (s.poolSteps e) = some q ∧ Serves s' q := by
  cases e with
  | enqueues ok =>
      simp only [step] at hstep
      split at hstep
      · rename_i h hreactor
        rw [poolSteps, hreactor]
        cases ok with
        | true =>
            cases hstep
            refine ⟨p.putq (some h), rfl, ?_, hp.worker⟩
            simp [ThreadPool.Pool.putq, hp.queue]
        | false =>
            cases hstep
            exact ⟨p, rfl, hp.queue, hp.worker⟩
      · cases hstep
  | dequeues w =>
      obtain ⟨h, queue, hworker, hqueue, rfl⟩ := step_dequeues hstep
      have hentry : p.queue = some h :: queue.map some := by
        rw [hp.queue, hqueue, List.map_cons]
      obtain ⟨q, hrun, hpc, htail⟩ := run_getq (hp.waiting hworker) hentry
      exact ⟨q, hrun, hp.move rfl hpc rfl htail⟩
  | workerProcesses w rval registered =>
      simp only [step] at hstep
      split at hstep
      · rename_i h hworker
        obtain ⟨entry, hpc⟩ := hp.handling hworker
        refine ⟨_, run_one (by simp only [ThreadPool.Pool.step, hpc]; rfl), ?_⟩
        split at hstep
        · rename_i hrval
          cases hstep
          rw [if_pos hrval]
          exact hp.move rfl rfl rfl hp.queue
        · rename_i hrval
          rw [if_neg hrval]
          split at hstep <;> cases hstep <;> exact hp.move rfl rfl rfl hp.queue
      · cases hstep
  | workerCloses w =>
      simp only [step] at hstep
      split at hstep
      · rename_i h hworker
        obtain ⟨entry, hpc⟩ := hp.closing hworker
        cases hstep
        refine ⟨p.move w .waiting, run_one (by simp only [ThreadPool.Pool.step, hpc]), ?_⟩
        exact hp.move rfl rfl rfl hp.queue
      · cases hstep
  | _ =>
      obtain ⟨hqueue, hworker⟩ := frame_of_poolSteps hstep rfl
      exact ⟨p, rfl, hp.queue.trans (by rw [hqueue]), fun w => hworker ▸ hp.worker w⟩

/-! ## Runs -/

/-- The workers enter the loop of `svc`. -/
def startup (workers : List ι) : List (ThreadPool.Event ι η) :=
  workers.flatMap fun w => [.testcancel w false, .counterGuard w]

omit [DecidableEq η] in
theorem run_startup {workers : List ι} (hnodup : workers.Nodup)
    (hlaunched : ∀ w ∈ workers, p.pc w = .launched) :
    ∃ q, run ThreadPool.Pool.step p (startup workers) = some q ∧ q.queue = p.queue ∧
      (∀ w ∈ workers, q.pc w = .waiting) ∧ ∀ w, w ∉ workers → q.pc w = p.pc w := by
  induction workers generalizing p with
  | nil => exact ⟨p, rfl, rfl, by simp, fun _ _ => rfl⟩
  | cons w workers ih =>
      obtain ⟨hfresh, hnodup⟩ := List.nodup_cons.mp hnodup
      have hpc := hlaunched w List.mem_cons_self
      have htest : ThreadPool.Pool.step p (.testcancel w false) = some (p.move w .admitted) := by
        simp [ThreadPool.Pool.step, hpc]
      have hguard : ThreadPool.Pool.step (p.move w .admitted) (.counterGuard w) =
          some { (p.move w .admitted).move w .waiting with active := p.active + 1 } := by
        simp [ThreadPool.Pool.step, ThreadPool.Pool.move]
      have hrest : ∀ v, v ∉ [w] →
          ({ (p.move w .admitted).move w .waiting with active := p.active + 1 } :
            ThreadPool.Pool ι η).pc v = p.pc v := by
        intro v hv
        have hne : v ≠ w := by simpa using hv
        simp [ThreadPool.Pool.move, hne]
      have hentered : ({ (p.move w .admitted).move w .waiting with active := p.active + 1 } :
          ThreadPool.Pool ι η).pc w = .waiting := by
        simp [ThreadPool.Pool.move]
      obtain ⟨q, hrun, hqueue, hwaiting, hothers⟩ := ih hnodup fun v hv => by
        rw [hrest v (by rintro hmem; exact hfresh (List.mem_singleton.mp hmem ▸ hv))]
        exact hlaunched v (List.mem_cons_of_mem w hv)
      refine ⟨q, run_cons_eq_some.mpr ⟨_, htest, run_cons_eq_some.mpr ⟨_, hguard, hrun⟩⟩, hqueue,
        ?_, ?_⟩
      · intro v hv
        rcases List.mem_cons.mp hv with rfl | hv
        · exact (hothers v hfresh).trans hentered
        · exact hwaiting v hv
      · intro v hv
        obtain ⟨hne, hv⟩ := not_or.mp fun hmem => hv (List.mem_cons.mpr hmem)
        exact (hothers v hv).trans (hrest v (by simpa using hne))

omit [DecidableEq η] in
/-- With all the workers in the loop, the pool is where the dispatcher starts. -/
theorem exists_serves_start [Fintype ι] :
    ∃ q, run ThreadPool.Pool.step ThreadPool.Pool.started (startup Finset.univ.toList) = some q ∧
      Serves (start : Dispatcher ι η) q := by
  obtain ⟨q, hrun, hqueue, hwaiting, -⟩ :=
    run_startup (p := (ThreadPool.Pool.started : ThreadPool.Pool ι η))
      (Finset.nodup_toList Finset.univ) fun _ _ => rfl
  refine ⟨q, hrun, hqueue, fun w => ?_⟩
  rw [hwaiting w (by simp)]
  rfl

/-- When no `enqueue` fails, the queue does not fail in the matching run. -/
theorem reliable_of_mem {events : List (Event ι η)} (hok : ∀ e ∈ events, e ≠ .enqueues false)
    {f : ThreadPool.Event ι η} {workers : List ι}
    (hf : f ∈ startup workers ++ emitted (step .threadPool) poolSteps start events) :
    f.Reliable := by
  rcases List.mem_append.mp hf with hf | hf
  · obtain ⟨w, -, hf⟩ := List.mem_flatMap.mp hf
    simp only [List.mem_cons, List.not_mem_nil, or_false] at hf
    rcases hf with rfl | rfl <;> trivial
  · obtain ⟨s, e, he, hf⟩ := exists_mem_of_mem_emitted hf
    have hne := hok e he
    cases e with
    | enqueues ok =>
        have hok : ok = true := by
          cases ok <;> simp_all
        simp only [poolSteps] at hf
        split at hf <;> simp_all [ThreadPool.Event.Reliable]
    | dequeues w =>
        simp only [poolSteps, List.mem_cons, List.not_mem_nil, or_false] at hf
        rcases hf with rfl | rfl <;> trivial
    | workerProcesses w rval registered | workerCloses w =>
        obtain rfl := List.mem_singleton.mp hf
        trivial
    | _ => cases hf

/-- The dispatcher refines the pool.  For every run of the dispatcher in thread pool mode,
with any number of handlers and workers and with the reactor, the timers and the workers at
any time: the hand-overs, the calls of `process` and of `handle_close` on workers are a run of
the thread pool, which ends with the same queue and with every worker at the same place.  When
no `enqueue` fails, the handlers are taken out in the order in which they were handed over,
and `handle_input` is called once for each hand-over that was taken out. -/
theorem dispatcher_refines_pool [Fintype ι] {events : List (Event ι η)}
    (hrun : run (step .threadPool) start events = some s) :
    ∃ p, run ThreadPool.Pool.step ThreadPool.Pool.started
        (startup Finset.univ.toList ++ emitted (step .threadPool) poolSteps start events) =
          some p ∧
      Serves s p ∧
      ((∀ e ∈ events, e ≠ .enqueues false) → ThreadPool.Pool.LedgerInv p) := by
  obtain ⟨q, hstart, hserves⟩ := exists_serves_start (ι := ι) (η := η)
  obtain ⟨p, hmatched, hp⟩ :=
    run_simulates (fun _ _ _ _ hp hstep => step_simulates hp hstep) hserves hrun
  have hwhole : run ThreadPool.Pool.step ThreadPool.Pool.started
      (startup Finset.univ.toList ++ emitted (step .threadPool) poolSteps start events) =
        some p := by
    rw [run_append, hstart]
    exact hmatched
  refine ⟨p, hwhole, hp, fun hok => ?_⟩
  have hreliable : Guarded ThreadPool.Pool.step (fun _ f => f.Reliable)
      (ThreadPool.Pool.started : ThreadPool.Pool ι η)
      (startup Finset.univ.toList ++ emitted (step .threadPool) poolSteps start events) :=
    Guarded.of_forall fun _ hf => reliable_of_mem hok hf
  exact hreliable.invariant (fun _ _ _ h hok hstep => h.step_inv hok hstep)
    ThreadPool.Pool.started_ledgerInv hwhole

/-- A handler is handed over, processed, and handed over again. -/
def handedOverTwice : List (Event Unit Unit) :=
  [.opens () true, .dispatches (), .enqueues true, .dequeues (), .workerProcesses () 0 true,
    .dispatches (), .enqueues true, .dequeues (), .workerProcesses () (-1) true, .workerCloses ()]

theorem dispatcher_refines_pool_handedOverTwice :
    ∃ p, run ThreadPool.Pool.step (ThreadPool.Pool.started : ThreadPool.Pool Unit Unit)
        (startup Finset.univ.toList ++ emitted (step .threadPool) poolSteps start handedOverTwice) =
          some p ∧
      ThreadPool.Pool.LedgerInv p := by
  obtain ⟨s, hrun⟩ : ∃ s, run (step .threadPool) start handedOverTwice = some s := ⟨_, rfl⟩
  obtain ⟨p, hmatched, -, hledger⟩ := dispatcher_refines_pool hrun
  exact ⟨p, hmatched, hledger (by simp [handedOverTwice])⟩

end Dispatcher

end Dispatch

end CciDaemon
