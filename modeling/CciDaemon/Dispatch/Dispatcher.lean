import CciDaemon.Foundations.Counting
import CciDaemon.Foundations.Transition
import Mathlib.Data.List.Count

/-!
# Dispatch - Handlers and their threads

A `proc_handler` is called by the reactor's thread, by the workers of the thread pool
or by the thread of its connection, as its concurrency mode says, and it deletes itself
on several paths.  A run interleaves these threads over any number of handlers.

Of the reactor the model takes what the handlers rely on: it has one thread, which
created every handler; it calls `handle_input` of registered handlers and
`handle_timeout` of handlers with a timer; it calls `handle_close` when `handle_input`
returned -1, and from within `remove_handler` without `DONT_CALL`, if the handler is
registered.  `delete this` deregisters the handler and cancels its timer.

Main results:

- Definition `step`: one step of one thread.
-/

namespace CciDaemon

namespace Dispatch

variable {ι η : Type} [DecidableEq ι] [DecidableEq η]

/-- `concurrency_t`. -/
inductive Concurrency
  | singleThreaded
  | threadPerConnection
  | threadPool
deriving DecidableEq

/-! ## One handler -/

/-- Where the thread of a connection is: not launched, in `svc`, behind `svc` in front
of `close`, or gone. -/
inductive ThreadPc
  | absent
  | running
  | closing
  | gone
deriving DecidableEq

/-- A handler as the reactor and its own thread see it.  `destroyed` counts the
executions of `destroy`; `finished` records that an `enqueue` of the handler failed or
that its `process` returned -1. -/
structure Connection where
  opened : Bool
  registered : Bool
  timer : Bool
  thread : ThreadPc
  destroyed : Nat
  finished : Bool
deriving DecidableEq

namespace Connection

/-- A handler before `open`. -/
def fresh : Connection where
  opened := false
  registered := false
  timer := false
  thread := .absent
  destroyed := 0
  finished := false

/-- `destroy`: the handler is removed from the reactor and deleted. -/
def destroy (c : Connection) : Connection :=
  { c with registered := false, timer := false, destroyed := c.destroyed + 1 }

/-- `open` with its timer; `ok` tells whether `activate`, or else `get_remote_addr` and
`register_handler`, succeed.  When `open` fails, the acceptor calls `close`. -/
def openHandler (mode : Concurrency) (ok : Bool) (c : Connection) : Connection :=
  let c := { c with opened := true, timer := true }
  if ok then
    match mode with
    | .threadPerConnection => { c with thread := .running }
    | _ => { c with registered := true }
  else c.destroy

def unregister (c : Connection) : Connection :=
  { c with registered := false }

def register (c : Connection) : Connection :=
  { c with registered := true }

def finish (c : Connection) : Connection :=
  { c with finished := true }

end Connection

/-! ## Threads -/

/-- Where the reactor's thread is. -/
inductive ReactorPc (η : Type)
  | idle
  /-- In `handle_input` in thread pool mode, between `remove_handler` and `enqueue`. -/
  | handing (h : η)
  /-- In `handle_input` in another mode. -/
  | processing (h : η)
  /-- In `handle_close`, in front of `destroy`. -/
  | closing (h : η)
  /-- In `handle_timeout`. -/
  | inTimeout (h : η)
  /-- In `handle_timeout` of an idle connection, in front of `remove_handler`. -/
  | removing (h : η)
  /-- In `handle_timeout` of an idle connection, in front of `destroy`. -/
  | destroying (h : η)
deriving DecidableEq

/-- Where a worker of the pool is. -/
inductive WorkerPc (η : Type)
  | idle
  /-- In `handle_input`, in front of `register_handler`. -/
  | processing (h : η)
  /-- In `handle_close`, in front of `destroy`. -/
  | closing (h : η)
deriving DecidableEq

/-- The handlers and the threads that work on them. -/
structure Dispatcher (ι η : Type) where
  conn : η → Connection
  queue : List η
  reactor : ReactorPc η
  worker : ι → WorkerPc η

/-- A step of a thread, with the results of the calls it makes. -/
inductive Event (ι η : Type)
  /-- The acceptor opens a handler. -/
  | opens (h : η) (ok : Bool)
  /-- The reactor calls `handle_input`. -/
  | dispatches (h : η)
  | enqueues (ok : Bool)
  /-- `process` returns on the reactor's thread. -/
  | reactorProcesses (rval : Int)
  /-- The reactor is closed and calls `handle_close`. -/
  | closes (h : η)
  | reactorCloses
  | dequeues (w : ι)
  /-- `process` returns on a worker; `registered` is the result of `register_handler`. -/
  | workerProcesses (w : ι) (rval : Int) (registered : Bool)
  | workerCloses (w : ι)
  /-- `process` returns on the thread of the connection. -/
  | threadProcesses (h : η) (rval : Int)
  | threadCloses (h : η)
  /-- The timer of a handler expires and the reactor calls `handle_timeout`. -/
  | expires (h : η)
  /-- The two tests of `handle_timeout`. -/
  | decides (recognised idle : Bool)
  | removes
  | destroys

namespace Dispatcher

/-- No handler is open, and every thread waits. -/
def start : Dispatcher ι η where
  conn := fun _ => Connection.fresh
  queue := []
  reactor := .idle
  worker := fun _ => .idle

/-- The state with one handler changed. -/
def modify (s : Dispatcher ι η) (h : η) (f : Connection → Connection) : Dispatcher ι η :=
  { s with conn := Function.update s.conn h (f (s.conn h)) }

/-- The state with one worker at another place. -/
def move (s : Dispatcher ι η) (w : ι) (pc : WorkerPc η) : Dispatcher ι η :=
  { s with worker := Function.update s.worker w pc }

/-- One step of one thread; {lit}`none` when the thread is somewhere else or has to
wait. -/
def step (mode : Concurrency) (s : Dispatcher ι η) : Event ι η → Option (Dispatcher ι η)
  | .opens h ok =>
      match s.reactor, (s.conn h).opened with
      | .idle, false => some (s.modify h (Connection.openHandler mode ok))
      | _, _ => none
  | .dispatches h =>
      match s.reactor, (s.conn h).registered with
      | .idle, true =>
          match mode with
          -- `remove_handler( this , REMOVE_MASK )`: no `handle_close`
          | .threadPool => some { s.modify h Connection.unregister with reactor := .handing h }
          | _ => some { s with reactor := .processing h }
      | _, _ => none
  | .enqueues ok =>
      match s.reactor with
      | .handing h =>
          if ok then some { s with queue := s.queue ++ [h], reactor := .idle }
          -- `handle_input` returns -1, but the handler is not registered any more
          else some { s.modify h Connection.finish with reactor := .idle }
      | _ => none
  | .reactorProcesses rval =>
      match s.reactor with
      | .processing h =>
          if rval = -1 then
            some { s.modify h fun c => c.unregister.finish with reactor := .closing h }
          else some { s with reactor := .idle }
      | _ => none
  | .closes h =>
      match s.reactor, (s.conn h).registered with
      | .idle, true => some { s.modify h Connection.unregister with reactor := .closing h }
      | _, _ => none
  | .reactorCloses =>
      match s.reactor with
      | .closing h => some { s.modify h Connection.destroy with reactor := .idle }
      | _ => none
  | .dequeues w =>
      match s.worker w, s.queue with
      | .idle, h :: queue => some { s.move w (.processing h) with queue := queue }
      | _, _ => none
  | .workerProcesses w rval registered =>
      match s.worker w with
      | .processing h =>
          if rval = -1 then some ((s.modify h Connection.finish).move w (.closing h))
          else if registered then some ((s.modify h Connection.register).move w .idle)
          else some (s.move w .idle)
      | _ => none
  | .workerCloses w =>
      match s.worker w with
      | .closing h => some ((s.modify h Connection.destroy).move w .idle)
      | _ => none
  | .threadProcesses h rval =>
      match (s.conn h).thread with
      | .running =>
          if rval = -1 then some (s.modify h fun c => { c with thread := .closing }) else some s
      | _ => none
  | .threadCloses h =>
      match (s.conn h).thread with
      | .closing => some (s.modify h fun c => { c.destroy with thread := .gone })
      | _ => none
  | .expires h =>
      match s.reactor, (s.conn h).timer with
      | .idle, true => some { s with reactor := .inTimeout h }
      | _, _ => none
  | .decides recognised idle =>
      match s.reactor with
      | .inTimeout h =>
          if recognised then
            if idle then some { s with reactor := .removing h }
            else some { s with reactor := .idle }
          else some { s with reactor := .idle }
      | _ => none
  | .removes =>
      match s.reactor with
      | .removing h =>
          -- `READ_MASK` alone: a registered handler has its `handle_close` called
          if (s.conn h).registered then
            some { s.modify h Connection.destroy with reactor := .destroying h }
          else some { s with reactor := .destroying h }
      | _ => none
  | .destroys =>
      match s.reactor with
      | .destroying h => some { s.modify h Connection.destroy with reactor := .idle }
      | _ => none

end Dispatcher

end Dispatch

end CciDaemon
