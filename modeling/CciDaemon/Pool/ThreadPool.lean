import CciDaemon.Foundations.Counting
import CciDaemon.Foundations.Transition

/-!
# Pool - The thread pool

`proc_thread_pool` and `auth_mgr_thread_pool` have the same code: `start` launches the
workers, each of which executes `svc`; handlers are put into the task's message queue
with `enqueue`; and `stop` puts one null entry for every active worker into the queue
and waits until none is active.

A run interleaves the steps of the workers, of the clients of `enqueue` and of one
call of `stop`.  The results of calls into the library are parts of the events.

Main results:

- Definition `step`: one step of one thread.
- Theorem `step_cases`: everything that a step can do.
- Theorem `step_active`: the counter counts the workers behind the counter guard.
-/

namespace CciDaemon

open Counting Transition

namespace ThreadPool

variable {ι η : Type} [DecidableEq ι]

/-- Where a worker is in `svc`.  The number of a queue entry tells how many were put
into the queue before it. -/
inductive WorkerPc (η : Type)
  /-- Launched, not yet past `testcancel`. -/
  | launched
  /-- In front of the counter guard. -/
  | admitted
  /-- In `getq`. -/
  | waiting
  /-- Behind `getq`, in front of `handle_input`. -/
  | holding (entry : Nat) (handler : η)
  /-- In `handle_input`. -/
  | handling (entry : Nat) (handler : η)
  /-- In `handle_close`. -/
  | closing (entry : Nat) (handler : η)
  /-- Out of the loop, in front of the counter guard's destructor. -/
  | leaving
  | finished
deriving DecidableEq

namespace WorkerPc

/-- The counter guard is alive. -/
def counted : WorkerPc η → Bool
  | launched | admitted | finished => false
  | _ => true

/-- The worker is inside the loop of `svc`. -/
def inLoop : WorkerPc η → Bool
  | waiting | holding _ _ | handling _ _ | closing _ _ => true
  | _ => false

theorem inLoop_counted (pc : WorkerPc η) (h : pc.inLoop = true) : pc.counted = true := by
  cases pc <;> first | rfl | cases h

end WorkerPc

/-- Where the call of `stop` is. -/
inductive StopPc
  | notCalled
  /-- `counter` sentinels are still to be put; at zero, `active_threads_` is polled. -/
  | running (counter : Nat)
  | returned
deriving DecidableEq

/-- What has happened so far: the entries in the order of their `putq`, and those taken
out, with the worker that took each of them; the calls of `handle_input` and their
returns, by entry; and, once `stop` has read `active_threads_`, the value it read and
the number of entries at that time. -/
structure History (ι η : Type) where
  enqueued : List (Option η)
  dequeued : List (ι × Option η)
  called : List (Nat × η)
  returned : List (Nat × η)
  counted : Nat
  before : Nat

/-- The pool.  A null entry of the queue is {lit}`none`. -/
structure Pool (ι η : Type) where
  pc : ι → WorkerPc η
  queue : List (Option η)
  active : Nat
  stop : StopPc
  history : History ι η

/-- A step of a worker, of a client or of `stop`. -/
inductive Event (ι η : Type)
  | testcancel (w : ι) (cancelled : Bool)
  | counterGuard (w : ι)
  | getq (w : ι)
  | getqFails (w : ι)
  | handleInput (w : ι)
  | handleInputReturns (w : ι) (rval : Int)
  | handleCloseReturns (w : ι)
  | counterGuardEnds (w : ι)
  | enqueue (handler : η) (ok : Bool)
  | stopCalled
  | stopEnqueues (ok : Bool)
  | stopPolls

namespace Pool

/-- The pool after `start`, with no worker in `svc` yet. -/
def started : Pool ι η where
  pc := fun _ => .launched
  queue := []
  active := 0
  stop := .notCalled
  history := { enqueued := [], dequeued := [], called := [], returned := [],
               counted := 0, before := 0 }

/-- The pool with worker `w` at another place. -/
def move (s : Pool ι η) (w : ι) (pc : WorkerPc η) : Pool ι η :=
  { s with pc := Function.update s.pc w pc }

@[simp] theorem move_queue (s : Pool ι η) (w : ι) (pc : WorkerPc η) :
    (s.move w pc).queue = s.queue := rfl

@[simp] theorem move_stop (s : Pool ι η) (w : ι) (pc : WorkerPc η) :
    (s.move w pc).stop = s.stop := rfl

@[simp] theorem move_history (s : Pool ι η) (w : ι) (pc : WorkerPc η) :
    (s.move w pc).history = s.history := rfl

/-- `putq`. -/
def putq (s : Pool ι η) (entry : Option η) : Pool ι η :=
  { s with queue := s.queue ++ [entry],
           history := { s.history with enqueued := s.history.enqueued ++ [entry] } }

/-- Where the loop of `svc` goes on with an entry: a null entry is a shutdown request. -/
def behindGetq (entry : Nat) : Option η → WorkerPc η
  | some handler => .holding entry handler
  | none => .leaving

/-- One step of one thread; {lit}`none` when the thread is somewhere else or has to
wait. -/
def step (s : Pool ι η) : Event ι η → Option (Pool ι η)
  | .testcancel w cancelled =>
      match s.pc w with
      | .launched => some (s.move w (if cancelled then .finished else .admitted))
      | _ => none
  | .counterGuard w =>
      match s.pc w with
      | .admitted => some { s.move w .waiting with active := s.active + 1 }
      | _ => none
  | .getq w =>
      match s.pc w, s.queue with
      | .waiting, entry :: queue =>
          let number := s.history.dequeued.length
          some { s.move w (behindGetq number entry) with
            queue := queue
            history := { s.history with dequeued := s.history.dequeued ++ [(w, entry)] } }
      | _, _ => none
  | .getqFails w =>
      match s.pc w with
      | .waiting => some (s.move w .leaving)
      | _ => none
  | .handleInput w =>
      match s.pc w with
      | .holding entry handler =>
          some { s.move w (.handling entry handler) with
            history := { s.history with called := s.history.called ++ [(entry, handler)] } }
      | _ => none
  | .handleInputReturns w rval =>
      match s.pc w with
      | .handling entry handler =>
          some { s.move w (if rval = -1 then .closing entry handler else .waiting) with
            history := { s.history with returned := s.history.returned ++ [(entry, handler)] } }
      | _ => none
  | .handleCloseReturns w =>
      match s.pc w with
      | .closing _ _ => some (s.move w .waiting)
      | _ => none
  | .counterGuardEnds w =>
      match s.pc w with
      | .leaving => some { s.move w .finished with active := s.active - 1 }
      | _ => none
  | .enqueue handler ok => some (if ok then s.putq (some handler) else s)
  | .stopCalled =>
      match s.stop with
      | .notCalled =>
          some { s with
            stop := .running s.active
            history := { s.history with
              counted := s.active, before := s.history.enqueued.length } }
      | _ => none
  | .stopEnqueues ok =>
      match s.stop with
      | .running (counter + 1) =>
          let s := { s with stop := .running counter }
          some (if ok then s.putq none else s)
      | _ => none
  | .stopPolls =>
      match s.stop with
      | .running 0 => some (if s.active = 0 then { s with stop := .returned } else s)
      | _ => none

/-- The steps again, by what they need and what they do. -/
inductive Step (s : Pool ι η) : Event ι η → Pool ι η → Prop
  | testcancel {w : ι} {cancelled : Bool} (hpc : s.pc w = .launched) :
      Step s (.testcancel w cancelled)
        (s.move w (if cancelled then .finished else .admitted))
  | counterGuard {w : ι} (hpc : s.pc w = .admitted) :
      Step s (.counterGuard w) { s.move w .waiting with active := s.active + 1 }
  | getq {w : ι} {entry : Option η} {queue : List (Option η)} (hpc : s.pc w = .waiting)
      (hqueue : s.queue = entry :: queue) :
      Step s (.getq w) { s.move w (behindGetq s.history.dequeued.length entry) with
        queue := queue
        history := { s.history with dequeued := s.history.dequeued ++ [(w, entry)] } }
  | getqFails {w : ι} (hpc : s.pc w = .waiting) : Step s (.getqFails w) (s.move w .leaving)
  | handleInput {w : ι} {entry : Nat} {handler : η} (hpc : s.pc w = .holding entry handler) :
      Step s (.handleInput w) { s.move w (.handling entry handler) with
        history := { s.history with called := s.history.called ++ [(entry, handler)] } }
  | handleInputReturns {w : ι} {rval : Int} {entry : Nat} {handler : η}
      (hpc : s.pc w = .handling entry handler) :
      Step s (.handleInputReturns w rval)
        { s.move w (if rval = -1 then .closing entry handler else .waiting) with
          history := { s.history with returned := s.history.returned ++ [(entry, handler)] } }
  | handleCloseReturns {w : ι} {entry : Nat} {handler : η}
      (hpc : s.pc w = .closing entry handler) :
      Step s (.handleCloseReturns w) (s.move w .waiting)
  | counterGuardEnds {w : ι} (hpc : s.pc w = .leaving) :
      Step s (.counterGuardEnds w) { s.move w .finished with active := s.active - 1 }
  | enqueue {handler : η} {ok : Bool} :
      Step s (.enqueue handler ok) (if ok then s.putq (some handler) else s)
  | stopCalled (hstop : s.stop = .notCalled) :
      Step s .stopCalled { s with
        stop := .running s.active
        history := { s.history with
          counted := s.active, before := s.history.enqueued.length } }
  | stopEnqueues {ok : Bool} {counter : Nat} (hstop : s.stop = .running (counter + 1)) :
      Step s (.stopEnqueues ok)
        (if ok then { s with stop := .running counter }.putq none
         else { s with stop := .running counter })
  | stopPolls (hstop : s.stop = .running 0) :
      Step s .stopPolls (if s.active = 0 then { s with stop := .returned } else s)

variable {s t : Pool ι η} {e : Event ι η}

/-- Everything that a step can do. -/
theorem step_cases (h : step s e = some t) : Step s e t := by
  cases e with
  | testcancel w cancelled =>
      simp only [step] at h
      split at h
      · rename_i hpc
        cases h
        exact .testcancel hpc
      · cases h
  | counterGuard w =>
      simp only [step] at h
      split at h
      · rename_i hpc
        cases h
        exact .counterGuard hpc
      · cases h
  | getq w =>
      simp only [step] at h
      split at h
      · rename_i entry queue hpc hqueue
        cases h
        exact .getq hpc hqueue
      · cases h
  | getqFails w =>
      simp only [step] at h
      split at h
      · rename_i hpc
        cases h
        exact .getqFails hpc
      · cases h
  | handleInput w =>
      simp only [step] at h
      split at h
      · rename_i hpc
        cases h
        exact .handleInput hpc
      · cases h
  | handleInputReturns w rval =>
      simp only [step] at h
      split at h
      · rename_i hpc
        cases h
        exact .handleInputReturns hpc
      · cases h
  | handleCloseReturns w =>
      simp only [step] at h
      split at h
      · rename_i hpc
        cases h
        exact .handleCloseReturns hpc
      · cases h
  | counterGuardEnds w =>
      simp only [step] at h
      split at h
      · rename_i hpc
        cases h
        exact .counterGuardEnds hpc
      · cases h
  | enqueue handler ok =>
      cases h
      exact .enqueue
  | stopCalled =>
      simp only [step] at h
      split at h
      · rename_i hstop
        cases h
        exact .stopCalled hstop
      · cases h
  | stopEnqueues ok =>
      simp only [step] at h
      split at h
      · rename_i hstop
        cases h
        exact .stopEnqueues hstop
      · cases h
  | stopPolls =>
      simp only [step] at h
      split at h
      · rename_i hstop
        cases h
        exact .stopPolls hstop
      · cases h

/-! ## The counter -/

variable [Fintype ι]

/-- The number of workers at places of a kind. -/
def workers (s : Pool ι η) (kind : WorkerPc η → Bool) : Nat :=
  countAt (fun pc => kind pc = true) s.pc

section Move

variable {kind : WorkerPc η → Bool} {w : ι}

/-- A move between two places of a kind, or of the other kind. -/
theorem workers_move_same {pc : WorkerPc η} (h : kind (s.pc w) = kind pc) :
    (s.move w pc).workers kind = s.workers kind :=
  countAt_update_same (by rw [h])

/-- A move to a place of a kind. -/
theorem workers_move_in (pc : WorkerPc η) (hfrom : kind (s.pc w) = false)
    (hto : kind pc = true) : (s.move w pc).workers kind = s.workers kind + 1 :=
  countAt_update_in (by simp [hfrom]) hto

/-- A move away from the places of a kind. -/
theorem workers_move_out (pc : WorkerPc η) (hfrom : kind (s.pc w) = true)
    (hto : kind pc = false) : (s.move w pc).workers kind + 1 = s.workers kind :=
  (countAt_update_out hfrom (by simp [hto])).symm

end Move

/-- A step keeps the counter equal to the number of workers behind the guard. -/
theorem step_active (h : s.active = s.workers WorkerPc.counted) (hstep : step s e = some t) :
    t.active = t.workers WorkerPc.counted := by
  cases step_cases hstep with
  | @testcancel w cancelled hpc =>
      refine h.trans (workers_move_same ?_).symm
      cases cancelled <;> rw [hpc] <;> rfl
  | counterGuard hpc =>
      exact (congrArg (· + 1) h).trans (workers_move_in .waiting (by rw [hpc]; rfl) rfl).symm
  | @getq w entry queue hpc hqueue =>
      refine h.trans (workers_move_same ?_).symm
      cases entry <;> rw [hpc] <;> rfl
  | getqFails hpc => exact h.trans (workers_move_same (by rw [hpc]; rfl)).symm
  | handleInput hpc => exact h.trans (workers_move_same (by rw [hpc]; rfl)).symm
  | @handleInputReturns w rval entry handler hpc =>
      refine h.trans (workers_move_same ?_).symm
      rw [hpc]
      split <;> rfl
  | handleCloseReturns hpc => exact h.trans (workers_move_same (by rw [hpc]; rfl)).symm
  | counterGuardEnds hpc =>
      exact congrArg (· - 1)
        (h.trans (workers_move_out .finished (by rw [hpc]; rfl) rfl).symm)
  | @enqueue handler ok => cases ok <;> exact h
  | stopCalled hstop => exact h
  | @stopEnqueues ok counter hstop => cases ok <;> exact h
  | stopPolls hstop => split <;> exact h

end Pool

end ThreadPool

end CciDaemon
