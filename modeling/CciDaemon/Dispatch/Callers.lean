import CciDaemon.Dispatch.Custody
import CciDaemon.Session.Handler

/-!
# Dispatch - The threads that call process

`process` is called by the reactor's thread, by the workers of the pool or by the thread of
the connection.  This file follows the calls through the steps of the dispatcher: which
thread is in which handler, where a call begins and where it returns.

Main results:

- Definition `holds`: the handler in which a thread calls `process`.
- Theorem `caller_unique`: in every mode, one thread at a time is in a handler.
- Theorems `holds_of_step`, `holds_of_starting` and `holds_of_returning`: what a step does to
  the calls.
- Theorem `run_fits`: the callers have the receive buffer of the mode.
- Theorem `InService.of_step`: a handler in service has been so since it was opened.
-/

namespace CciDaemon

open Transition Counting

namespace Dispatch

/-- A thread that calls `process`. -/
inductive Caller (ι η : Type)
  | reactor
  | worker (w : ι)
  | connection (h : η)
deriving DecidableEq

/-- The receive buffer of a caller: `handle_input` has one of its own, and so has `svc`. -/
def Caller.rdbufLen {ι η : Type} : Caller ι η → Nat
  | .reactor | .worker _ => cmdBufferLen
  | .connection _ => bufsiz

/-- The receive buffer of the callers of a mode. -/
def Concurrency.rdbufLen : Concurrency → Nat
  | .singleThreaded | .threadPool => cmdBufferLen
  | .threadPerConnection => bufsiz

namespace Connection

variable (c : Connection)

@[simp] theorem thread_finish : c.finish.thread = c.thread := rfl

@[simp] theorem thread_register : c.register.thread = c.thread := rfl

@[simp] theorem thread_unregister : c.unregister.thread = c.thread := rfl

@[simp] theorem thread_destroy : c.destroy.thread = c.thread := rfl

end Connection

variable {ι η : Type} [DecidableEq ι] [DecidableEq η]

/-- The handler in which a thread calls `process`. -/
def Dispatcher.holds (s : Dispatcher ι η) : Caller ι η → Option η
  | .reactor =>
      match s.reactor with
      | .processing h => some h
      | _ => none
  | .worker w =>
      match s.worker w with
      | .processing h => some h
      | _ => none
  | .connection h => if (s.conn h).thread = .running then some h else none

namespace Event

/-- The caller whose `process` returns in a step, with the value. -/
def returning : Event ι η → Option (Caller ι η × Int)
  | .reactorProcesses rval => some (.reactor, rval)
  | .workerProcesses w rval _ => some (.worker w, rval)
  | .threadProcesses h rval => some (.connection h, rval)
  | _ => none

/-- The caller that begins a call of `process` in a step.  The loop of `svc` begins one as
soon as the last one has returned. -/
def starting (mode : Concurrency) : Event ι η → Option (Caller ι η)
  | .opens h ok => if ok = true ∧ mode = .threadPerConnection then some (.connection h) else none
  | .dispatches _ => if mode = .threadPool then none else some .reactor
  | .dequeues w => some (.worker w)
  | .threadProcesses h rval => if rval = -1 then none else some (.connection h)
  | _ => none

omit [DecidableEq ι] [DecidableEq η] in
/-- A step in which one call returns and another begins is one of one caller. -/
theorem starting_of_returning {mode : Concurrency} {e : Event ι η} {t u : Caller ι η}
    {rval : Int} (hreturning : e.returning = some (t, rval))
    (hstarting : e.starting mode = some u) : u = t := by
  cases e <;> simp_all [returning, starting]

end Event

namespace Dispatcher

variable {mode : Concurrency} {s s' : Dispatcher ι η} {e : Event ι η} {t u : Caller ι η} {h : η}

omit [DecidableEq ι] [DecidableEq η] in
@[simp] theorem holds_reactor_iff : s.holds .reactor = some h ↔ s.reactor = .processing h := by
  cases hreactor : s.reactor <;> simp [holds, hreactor]

omit [DecidableEq ι] [DecidableEq η] in
@[simp] theorem holds_worker_iff {w : ι} :
    s.holds (.worker w) = some h ↔ s.worker w = .processing h := by
  cases hworker : s.worker w <;> simp [holds, hworker]

omit [DecidableEq ι] [DecidableEq η] in
@[simp] theorem holds_connection_iff {k : η} :
    s.holds (.connection k) = some h ↔ k = h ∧ (s.conn h).thread = .running := by
  unfold holds
  grind

/-- A worker that takes a handler out of the queue. -/
theorem step_dequeues {w : ι} (hstep : step mode s (.dequeues w) = some s') :
    ∃ k queue, s.worker w = .idle ∧ s.queue = k :: queue ∧
      s' = { s.move w (.processing k) with queue := queue } := by
  simp only [step] at hstep
  split at hstep
  · rename_i k queue hworker hqueue
    cases hstep
    exact ⟨k, queue, hworker, hqueue, rfl⟩
  · cases hstep

theorem step_opens {k : η} {ok : Bool} (hstep : step mode s (.opens k ok) = some s') :
    s.reactor = .idle ∧ (s.conn k).opened = false ∧
      s' = s.modify k (Connection.openHandler mode ok) := by
  simp only [step] at hstep
  split at hstep
  · rename_i hreactor hopened
    cases hstep
    exact ⟨hreactor, hopened, rfl⟩
  · cases hstep

/-- A worker stays in its handler until its call returns. -/
theorem worker_of_step {w : ι} (hstep : step mode s e = some s')
    (hreturning : e.returning.map Prod.fst ≠ some (.worker w))
    (hstarting : e.starting mode ≠ some (.worker w)) :
    s'.worker w = .processing h ↔ s.worker w = .processing h := by
  cases e with
  | dequeues v =>
      obtain ⟨k, queue, -, -, rfl⟩ := step_dequeues hstep
      have hne : w ≠ v := by
        rintro rfl
        exact hstarting rfl
      simp [move, hne]
  | workerProcesses v rval registered =>
      have hne : w ≠ v := by
        rintro rfl
        exact hreturning rfl
      simp only [step] at hstep
      split at hstep
      · split at hstep
        · cases hstep
          simp [move, modify, hne]
        · split at hstep <;> cases hstep <;> simp [move, modify, hne]
      · cases hstep
  | workerCloses v =>
      simp only [step] at hstep
      split at hstep
      · rename_i hclosing
        cases hstep
        by_cases hv : w = v
        · subst hv
          simp [move, hclosing]
        · simp [move, modify, hv]
      · cases hstep
  | _ =>
      simp only [step] at hstep
      grind [modify]

/-- The thread of a connection stays in its handler until its call returns. -/
theorem thread_of_step (hstep : step mode s e = some s')
    (hreturning : e.returning.map Prod.fst ≠ some (.connection h))
    (hstarting : e.starting mode ≠ some (.connection h)) :
    (s'.conn h).thread = .running ↔ (s.conn h).thread = .running := by
  cases e with
  | opens k ok =>
      obtain ⟨-, -, rfl⟩ := step_opens hstep
      by_cases hh : h = k
      · subst hh
        cases ok <;> cases mode <;> simp_all [modify, Event.starting, Connection.openHandler,
          Connection.destroy]
      · simp [modify, hh]
  | dequeues w =>
      obtain ⟨k, queue, -, -, rfl⟩ := step_dequeues hstep
      rfl
  | threadProcesses k rval =>
      have hh : h ≠ k := by
        rintro rfl
        exact hreturning rfl
      simp only [step] at hstep
      split at hstep
      · split at hstep <;> cases hstep <;> simp [modify, hh]
      · cases hstep
  | threadCloses k =>
      simp only [step] at hstep
      split at hstep
      · rename_i hthread
        cases hstep
        by_cases hh : h = k
        · subst hh
          simp [modify, hthread]
        · simp [modify, hh]
      · cases hstep
  | _ =>
      -- every other step leaves the place of the thread as it is
      simp only [step] at hstep
      repeat' split at hstep
      all_goals cases hstep
      all_goals
        first
        | rfl
        | simp only [move, modify]
          grind [Function.update_apply, Connection.thread_finish, Connection.thread_register,
            Connection.thread_unregister, Connection.thread_destroy]

/-- Nothing happens to the other callers. -/
theorem holds_of_step (hstep : step mode s e = some s')
    (hreturning : e.returning.map Prod.fst ≠ some t) (hstarting : e.starting mode ≠ some t) :
    s'.holds t = some h ↔ s.holds t = some h := by
  cases t with
  | reactor =>
      simp only [holds_reactor_iff]
      cases e <;> simp only [step] at hstep <;>
        grind [Event.returning, Event.starting, modify, move]
  | worker w =>
      simp only [holds_worker_iff]
      exact worker_of_step hstep hreturning hstarting
  | connection k =>
      simp only [holds_connection_iff]
      refine and_congr_right ?_
      rintro rfl
      exact thread_of_step hstep hreturning hstarting

/-! ## Where calls begin and return -/

/-- A caller that begins a call is in the handler of the step afterwards; before, it was in
none, or has just returned from it. -/
theorem holds_of_starting [Fintype ι] (hstep : step mode s e = some s')
    (hstarting : e.starting mode = some t) :
    ∃ k, s.subject e = some k ∧ s'.holds t = some k ∧
      (e.returning = none → ∀ j, s.holds t = some j → (s.conn j).opened = false) := by
  cases e with
  | opens k ok =>
      obtain ⟨-, hopened, rfl⟩ := step_opens hstep
      simp only [Event.starting] at hstarting
      split at hstarting
      · rename_i hok
        obtain ⟨rfl, rfl⟩ := hok
        cases hstarting
        refine ⟨k, rfl, by simp [modify, Connection.openHandler], fun _ j hj => ?_⟩
        obtain ⟨rfl, -⟩ := holds_connection_iff.mp hj
        exact hopened
      · cases hstarting
  | dispatches k =>
      simp only [Event.starting] at hstarting
      split at hstarting
      · cases hstarting
      · cases hstarting
        simp only [step] at hstep
        split at hstep
        · rename_i hreactor _
          cases hstep
          refine ⟨k, rfl, by simp, fun _ j hj => ?_⟩
          simp [hreactor] at hj
        · cases hstep
  | dequeues w =>
      cases hstarting
      obtain ⟨k, queue, hworker, hqueue, rfl⟩ := step_dequeues hstep
      refine ⟨k, by simp [subject, hqueue], by simp [move], fun _ j hj => ?_⟩
      simp [hworker] at hj
  | threadProcesses k rval =>
      simp only [Event.starting] at hstarting
      split at hstarting
      · cases hstarting
      · rename_i hrval
        cases hstarting
        simp only [step] at hstep
        split at hstep
        · rename_i hthread
          rw [if_neg hrval] at hstep
          cases hstep
          exact ⟨k, rfl, by simp [hthread], fun h => by cases h⟩
        · cases hstep
  | _ => cases hstarting

/-- A caller whose call returns is in the handler of the step before; afterwards it is there
only if it begins another call. -/
theorem holds_of_returning [Fintype ι] {rval : Int} (hstep : step mode s e = some s')
    (hreturning : e.returning = some (t, rval)) :
    ∃ k, s.subject e = some k ∧ s.holds t = some k ∧
      ∀ j, s'.holds t = some j → j = k ∧ e.starting mode = some t := by
  cases e with
  | reactorProcesses value =>
      cases hreturning
      simp only [step] at hstep
      split at hstep
      · rename_i k hreactor
        refine ⟨k, by simp [subject, hreactor], by simp [hreactor], fun j hj => ?_⟩
        split at hstep <;> cases hstep <;> simp at hj
      · cases hstep
  | workerProcesses w value registered =>
      cases hreturning
      simp only [step] at hstep
      split at hstep
      · rename_i k hworker
        refine ⟨k, by simp [subject, hworker], by simp [hworker], fun j hj => ?_⟩
        split at hstep
        · cases hstep
          simp [move] at hj
        · split at hstep <;> cases hstep <;> simp [move] at hj
      · cases hstep
  | threadProcesses k value =>
      cases hreturning
      simp only [step] at hstep
      split at hstep
      · rename_i hthread
        refine ⟨k, rfl, by simp [hthread], fun j hj => ?_⟩
        split at hstep
        · cases hstep
          obtain ⟨rfl, hrunning⟩ := holds_connection_iff.mp hj
          simp [modify] at hrunning
        · rename_i hrval
          cases hstep
          obtain ⟨rfl, -⟩ := holds_connection_iff.mp hj
          exact ⟨rfl, by simp [Event.starting, hrval]⟩
      · cases hstep
  | _ => cases hreturning

end Dispatcher

/-! ## One caller at a time -/

/-- The steps that end the service of a handler. -/
def Act.EndsService : Act → Prop
  | .enqueueFails | .finishes | .destroysBehind | .closes | .reactorCloses | .idleCloses
  | .removes | .destroys => True
  | _ => False

namespace View

variable {mode : Concurrency} {v v' : View} {a : Act}

/-- The mode decides which threads call `process`. -/
structure Fits (mode : Concurrency) (v : View) : Prop where
  thread : v.conn.thread ≠ .absent → mode = .threadPerConnection
  reactor : mode = .threadPerConnection → v.conn.registered = false ∧ v.queued = 0 ∧
    v.processing = 0 ∧ v.place ≠ .handing ∧ v.place ≠ .processing

theorem Fits.step (hv : v.Fits mode) (hstep : ViewStep mode v a v') : v'.Fits mode := by
  obtain ⟨hthread, hreactor⟩ := hv
  constructor
  · cases hstep with
    | @opens ok hplace hopened =>
        cases ok <;> cases mode <;> simp_all [Connection.openHandler, Connection.destroy]
    | _ => grind [Connection.thread_finish, Connection.thread_register,
        Connection.thread_unregister, Connection.thread_destroy]
  · cases hstep with
    | @opens ok hplace hopened =>
        cases ok <;> cases mode <;> simp_all [Connection.openHandler, Connection.destroy]
    | _ => grind [Connection.finish, Connection.register, Connection.unregister,
        Connection.destroy]

/-- Nothing has ended the service of a handler or is about to. -/
structure InService (v : View) : Prop where
  opened : v.conn.opened = true
  alive : v.conn.destroyed = 0
  unfinished : v.conn.finished = false
  thread : v.conn.thread ≠ .closing
  place : v.place ≠ .closing ∧ v.place ≠ .removing ∧ v.place ≠ .destroying

/-- A handler in service has been so since it was opened. -/
theorem InService.of_step (hv : v'.InService) (hstep : ViewStep mode v a v')
    (ha : a ≠ .opens) : v.InService := by
  obtain ⟨hopened, halive, hunfinished, hthread, hplace⟩ := hv
  constructor <;> cases hstep <;> simp_all [Connection.destroy, Connection.finish,
    Connection.register, Connection.unregister]

theorem InService.not_endsService (hv : v'.InService) (hstep : ViewStep mode v a v') :
    ¬ a.EndsService := by
  obtain ⟨-, halive, hunfinished, hthread, hplace⟩ := hv
  cases hstep <;> simp_all [Act.EndsService, Connection.destroy, Connection.finish]

end View

namespace Dispatcher

variable [Fintype ι] {mode : Concurrency} {s : Dispatcher ι η} {t u : Caller ι η} {h : η}

omit [DecidableEq ι] in
theorem reactor_view (ht : s.reactor = .processing h) : (s.view h).place = .processing := by
  simp [view, ht, ReactorPc.place]

omit [DecidableEq ι] in
theorem worker_view {w : ι} (ht : s.worker w = .processing h) : 0 < (s.view h).processing :=
  countAt_pos_iff (p := (· = WorkerPc.processing h)).mpr ⟨w, ht⟩

omit [DecidableEq ι] in
/-- In every mode, one thread at a time is in a handler. -/
theorem caller_unique (hcustody : (s.view h).Custody) (ht : s.holds t = some h)
    (hu : s.holds u = some h) : t = u := by
  have hone := hcustody.one
  have hregistered := hcustody.processing
  simp only [View.tokens, View.users, Connection.tokens] at hone
  cases t with
  | reactor =>
      have hplace := reactor_view (holds_reactor_iff.mp ht)
      have hreg := hregistered hplace
      rw [hreg, Bool.toNat_true] at hone
      cases u with
      | reactor => rfl
      | worker w =>
          have hpos := worker_view (holds_worker_iff.mp hu)
          omega
      | connection k =>
          obtain ⟨rfl, hrunning⟩ := holds_connection_iff.mp hu
          rw [view_conn, hrunning, ThreadPc.tokens] at hone
          omega
  | worker w =>
      have hpos := worker_view (holds_worker_iff.mp ht)
      cases u with
      | reactor =>
          have hreg := hregistered (reactor_view (holds_reactor_iff.mp hu))
          rw [hreg, Bool.toNat_true] at hone
          omega
      | worker w' =>
          have hcount : countAt (· = .processing h) s.worker ≤ 1 := by
            change (s.view h).processing ≤ 1
            omega
          rw [eq_of_countAt_le_one hcount (holds_worker_iff.mp ht) (holds_worker_iff.mp hu)]
      | connection k =>
          obtain ⟨rfl, hrunning⟩ := holds_connection_iff.mp hu
          rw [view_conn, hrunning, ThreadPc.tokens] at hone
          omega
  | connection k =>
      obtain ⟨rfl, hrunning⟩ := holds_connection_iff.mp ht
      rw [view_conn, hrunning, ThreadPc.tokens] at hone
      cases u with
      | reactor =>
          have hreg := hregistered (reactor_view (holds_reactor_iff.mp hu))
          rw [← view_conn, hreg, Bool.toNat_true] at hone
          omega
      | worker w =>
          have hpos := worker_view (holds_worker_iff.mp hu)
          omega
      | connection k' =>
          obtain ⟨rfl, -⟩ := holds_connection_iff.mp hu
          rfl

omit [DecidableEq ι] in
/-- No thread is in a handler that has not been opened. -/
theorem opened_of_holds (hcustody : (s.view h).Custody) (ht : s.holds t = some h) :
    (s.conn h).opened = true := by
  by_contra hnot
  have hfresh := hcustody.unopened (by simpa using hnot)
  cases t with
  | reactor =>
      have hplace := reactor_view (holds_reactor_iff.mp ht)
      rw [hfresh] at hplace
      cases hplace
  | worker w =>
      have hpos := worker_view (holds_worker_iff.mp ht)
      rw [hfresh] at hpos
      exact absurd hpos (lt_irrefl 0)
  | connection k =>
      obtain ⟨rfl, hrunning⟩ := holds_connection_iff.mp ht
      rw [← view_conn, hfresh] at hrunning
      cases hrunning

/-- In every run, the callers are those of the mode. -/
theorem run_fits {es : List (Event ι η)} (hrun : run (step mode) start es = some s) (h : η) :
    (s.view h).Fits mode :=
  run_view ⟨fun hthread => absurd rfl hthread, fun _ => by decide⟩
    (fun _ _ _ hv hview => hv.step hview) hrun h

omit [DecidableEq ι] in
/-- Their receive buffer is that of the mode. -/
theorem rdbufLen_of_fits (hfits : (s.view h).Fits mode) (ht : s.holds t = some h) :
    t.rdbufLen = mode.rdbufLen := by
  cases t with
  | reactor =>
      have hplace := reactor_view (holds_reactor_iff.mp ht)
      cases mode <;> first | rfl | exact absurd hplace (hfits.reactor rfl).2.2.2.2
  | worker w =>
      have hpos := worker_view (holds_worker_iff.mp ht)
      cases mode <;> first | rfl | exact absurd (hfits.reactor rfl).2.2.1 (by omega)
  | connection k =>
      obtain ⟨rfl, hrunning⟩ := holds_connection_iff.mp ht
      rw [hfits.thread (by simp [hrunning])]
      rfl

/-- A handler in service has been so since it was opened. -/
theorem inService_of_step {s' : Dispatcher ι η} {e : Event ι η} (hstep : step mode s e = some s')
    (hservice : (s'.view h).InService) (hopens : ∀ ok, e ≠ .opens h ok) :
    (s.view h).InService := by
  obtain ⟨k, hsubject, hview, hother⟩ := step_view hstep
  by_cases hk : h = k
  · subst hk
    apply hservice.of_step hview
    intro hact
    cases e with
    | opens j ok =>
        cases hsubject
        exact hopens ok rfl
    | enqueues ok => cases ok <;> cases hact
    | reactorProcesses rval | threadProcesses j rval =>
        simp only [Event.act] at hact
        split at hact <;> cases hact
    | workerProcesses w rval registered =>
        simp only [Event.act] at hact
        split at hact
        · cases hact
        · split at hact <;> cases hact
    | decides recognised idle => cases recognised <;> cases idle <;> cases hact
    | _ => cases hact
  · rw [← hother h hk]
    exact hservice

/-- A call that returns -1 ends the service of its handler. -/
theorem not_inService_of_returning {s' : Dispatcher ι η} {e : Event ι η} {rval : Int}
    (hstep : step mode s e = some s') (hreturning : e.returning = some (t, rval))
    (hsubject : s.subject e = some h) (hservice : (s'.view h).InService) : rval ≠ -1 := by
  rintro rfl
  obtain ⟨k, hk, hview, -⟩ := step_view hstep
  obtain rfl := Option.some.inj (hsubject.symm.trans hk)
  have hact := hservice.not_endsService hview
  cases e with
  | reactorProcesses rval | workerProcesses w rval registered | threadProcesses j rval =>
      cases hreturning
      exact hact trivial
  | _ => cases hreturning

end Dispatcher

end Dispatch

end CciDaemon
