import CciDaemon.Dispatch.Dispatcher

/-!
# Dispatch - One connection at a time

What happens to a handler does not depend on the other handlers.  This file looks at
the dispatcher from one handler and shows that a step of the dispatcher is a step of
one handler, and leaves the views of all the others as they were.

Main results:

- Definition `view`: what concerns one handler.
- Definition `ViewStep`: the life of one handler.
- Theorem `step_view`: a step of the dispatcher is a step of one handler.
-/

namespace CciDaemon

open Counting

namespace Dispatch

variable {ι η : Type} [DecidableEq ι] [DecidableEq η]

/-! ## Views -/

/-- Where the reactor's thread is, seen from one handler. -/
inductive Place
  | elsewhere
  | handing
  | processing
  | closing
  | inTimeout
  | removing
  | destroying
deriving DecidableEq

/-- The place of the reactor's thread, seen from `h`. -/
def ReactorPc.place (h : η) : ReactorPc η → Place
  | idle => .elsewhere
  | handing k => if k = h then .handing else .elsewhere
  | processing k => if k = h then .processing else .elsewhere
  | closing k => if k = h then .closing else .elsewhere
  | inTimeout k => if k = h then .inTimeout else .elsewhere
  | removing k => if k = h then .removing else .elsewhere
  | destroying k => if k = h then .destroying else .elsewhere

/-- The handler that the reactor's thread works on. -/
@[simp] def ReactorPc.handler : ReactorPc η → Option η
  | idle => none
  | handing h | processing h | closing h | inTimeout h | removing h | destroying h => some h

theorem ReactorPc.place_of_ne {r : ReactorPc η} {h k : η}
    (hr : ∀ k, r.handler = some k → h = k) (hk : k ≠ h) : r.place k = .elsewhere := by
  cases r with
  | idle => rfl
  | handing j | processing j | closing j | inTimeout j | removing j | destroying j =>
      obtain rfl := hr j rfl
      exact if_neg hk.symm

/-- The handler that a worker works on. -/
@[simp] def WorkerPc.handler : WorkerPc η → Option η
  | idle => none
  | processing h | closing h => some h

omit [DecidableEq η] in
theorem WorkerPc.handler_eq_some_iff {pc : WorkerPc η} {h : η} :
    pc.handler = some h ↔ pc = .processing h ∨ pc = .closing h := by
  cases pc <;> simp

/-- What concerns one handler: the reactor, the queue entries, and the workers that
process or close it. -/
structure View where
  conn : Connection
  place : Place
  queued : Nat
  processing : Nat
  closing : Nat
deriving DecidableEq

/-- The view of `h`. -/
def Dispatcher.view [Fintype ι] (s : Dispatcher ι η) (h : η) : View where
  conn := s.conn h
  place := s.reactor.place h
  queued := s.queue.count h
  processing := countAt (· = .processing h) s.worker
  closing := countAt (· = .closing h) s.worker

/-- What a step is to the handler it is about. -/
inductive Act
  | opens
  | dispatches
  | enqueues
  | enqueueFails
  | processes
  | registers
  | registerFails
  | finishes
  /-- A worker or the thread of the connection destroys the handler. -/
  | destroysBehind
  | closes
  | reactorCloses
  | dequeues
  | expires
  | staysOpen
  | idleCloses
  | removes
  | destroys
deriving DecidableEq

/-- The life of one handler. -/
inductive ViewStep (mode : Concurrency) (v : View) : Act → View → Prop
  | opens {ok : Bool} (hplace : v.place = .elsewhere) (hopened : v.conn.opened = false) :
      ViewStep mode v .opens { v with conn := v.conn.openHandler mode ok }
  | hands (hmode : mode = .threadPool) (hplace : v.place = .elsewhere)
      (hregistered : v.conn.registered = true) :
      ViewStep mode v .dispatches { v with conn := v.conn.unregister, place := .handing }
  | dispatches (hmode : mode ≠ .threadPool) (hplace : v.place = .elsewhere)
      (hregistered : v.conn.registered = true) :
      ViewStep mode v .dispatches { v with place := .processing }
  | enqueues (hplace : v.place = .handing) :
      ViewStep mode v .enqueues { v with queued := v.queued + 1, place := .elsewhere }
  | enqueueFails (hplace : v.place = .handing) :
      ViewStep mode v .enqueueFails { v with conn := v.conn.finish, place := .elsewhere }
  | reactorProcesses (hplace : v.place = .processing) :
      ViewStep mode v .processes { v with place := .elsewhere }
  | reactorFinishes (hplace : v.place = .processing) :
      ViewStep mode v .finishes { v with conn := v.conn.unregister.finish, place := .closing }
  | closes (hplace : v.place = .elsewhere) (hregistered : v.conn.registered = true) :
      ViewStep mode v .closes { v with conn := v.conn.unregister, place := .closing }
  | reactorCloses (hplace : v.place = .closing) :
      ViewStep mode v .reactorCloses { v with conn := v.conn.destroy, place := .elsewhere }
  | dequeues {n : Nat} (hqueued : v.queued = n + 1) :
      ViewStep mode v .dequeues { v with queued := n, processing := v.processing + 1 }
  | workerRegisters {n : Nat} (hprocessing : v.processing = n + 1) :
      ViewStep mode v .registers { v with conn := v.conn.register, processing := n }
  | workerRegisterFails {n : Nat} (hprocessing : v.processing = n + 1) :
      ViewStep mode v .registerFails { v with processing := n }
  | workerFinishes {n : Nat} (hprocessing : v.processing = n + 1) :
      ViewStep mode v .finishes
        { v with conn := v.conn.finish, processing := n, closing := v.closing + 1 }
  | workerCloses {n : Nat} (hclosing : v.closing = n + 1) :
      ViewStep mode v .destroysBehind { v with conn := v.conn.destroy, closing := n }
  | threadProcesses (hthread : v.conn.thread = .running) : ViewStep mode v .processes v
  | threadFinishes (hthread : v.conn.thread = .running) :
      ViewStep mode v .finishes { v with conn := { v.conn with thread := .closing } }
  | threadCloses (hthread : v.conn.thread = .closing) :
      ViewStep mode v .destroysBehind { v with conn := { v.conn.destroy with thread := .gone } }
  | expires (hplace : v.place = .elsewhere) (htimer : v.conn.timer = true) :
      ViewStep mode v .expires { v with place := .inTimeout }
  | staysOpen (hplace : v.place = .inTimeout) :
      ViewStep mode v .staysOpen { v with place := .elsewhere }
  | idleCloses (hplace : v.place = .inTimeout) :
      ViewStep mode v .idleCloses { v with place := .removing }
  | removesRegistered (hplace : v.place = .removing) (hregistered : v.conn.registered = true) :
      ViewStep mode v .removes { v with conn := v.conn.destroy, place := .destroying }
  | removes (hplace : v.place = .removing) (hregistered : v.conn.registered = false) :
      ViewStep mode v .removes { v with place := .destroying }
  | destroys (hplace : v.place = .destroying) :
      ViewStep mode v .destroys { v with conn := v.conn.destroy, place := .elsewhere }

/-- What a step of the dispatcher is to the handler it is about. -/
def Event.act : Event ι η → Act
  | .opens _ _ => .opens
  | .dispatches _ => .dispatches
  | .enqueues ok => if ok then .enqueues else .enqueueFails
  | .reactorProcesses rval => if rval = -1 then .finishes else .processes
  | .closes _ => .closes
  | .reactorCloses => .reactorCloses
  | .dequeues _ => .dequeues
  | .workerProcesses _ rval registered =>
      if rval = -1 then .finishes else if registered then .registers else .registerFails
  | .workerCloses _ => .destroysBehind
  | .threadProcesses _ rval => if rval = -1 then .finishes else .processes
  | .threadCloses _ => .destroysBehind
  | .expires _ => .expires
  | .decides recognised idle => if recognised && idle then .idleCloses else .staysOpen
  | .removes => .removes
  | .destroys => .destroys

namespace Dispatcher

variable [Fintype ι] {mode : Concurrency} {s t : Dispatcher ι η} {e : Event ι η}

/-- The handler that a step is about. -/
def subject (s : Dispatcher ι η) : Event ι η → Option η
  | .opens h _ | .dispatches h | .closes h | .threadProcesses h _ | .threadCloses h
  | .expires h => some h
  | .dequeues _ => s.queue.head?
  | .workerProcesses w _ _ | .workerCloses w => (s.worker w).handler
  | .enqueues _ | .reactorProcesses _ | .reactorCloses | .decides _ _ | .removes
  | .destroys => s.reactor.handler

section Views

variable {h k : η} {r : ReactorPc η} {f : Connection → Connection} {w : ι} {pc : WorkerPc η}

/-! ### The handler of a step -/

omit [DecidableEq ι] in
@[simp] theorem view_conn : (s.view h).conn = s.conn h := rfl

omit [DecidableEq ι] in
@[simp] theorem view_modify : (s.modify h f).view h = { s.view h with conn := f (s.conn h) } := by
  simp [view, modify]

omit [DecidableEq ι] in
@[simp] theorem view_reactor :
    ({ s with reactor := r } : Dispatcher ι η).view h =
      { s.view h with place := r.place h } := rfl

/-- A worker takes the handler out of the queue. -/
theorem view_starts {queue : List η} (hw : s.worker w = .idle) :
    ({ s.move w (.processing h) with queue := queue } : Dispatcher ι η).view h =
      { s.view h with
        queued := queue.count h
        processing := (s.view h).processing + 1 } := by
  have hin := countAt_update_in (p := (· = .processing h)) (f := s.worker) (i := w)
    (b := .processing h) (by simp [hw]) rfl
  have hsame := countAt_update_same (p := (· = .closing h)) (f := s.worker) (i := w)
    (b := .processing h) (by simp [hw])
  simp [view, move, hin, hsame]

/-- A worker stops to process the handler, and closes it or not. -/
theorem view_stops (hw : s.worker w = .processing h) :
    ∃ n, (s.view h).processing = n + 1 ∧
      (s.move w .idle).view h = { s.view h with processing := n } ∧
      (s.move w (.closing h)).view h =
        { s.view h with processing := n, closing := (s.view h).closing + 1 } := by
  have hidle := countAt_update_out (p := (· = WorkerPc.processing h)) (b := .idle) hw (by simp)
  have hclosing := countAt_update_out (p := (· = WorkerPc.processing h)) (b := .closing h) hw
    (by simp)
  have hsame := countAt_update_same (p := (· = .closing h)) (f := s.worker) (i := w)
    (b := .idle) (by simp [hw])
  have hin := countAt_update_in (p := (· = .closing h)) (f := s.worker) (i := w)
    (b := .closing h) (by simp [hw]) rfl
  refine ⟨_, hidle, ?_, ?_⟩
  · simp [view, move, hsame]
  · have hn := Nat.add_right_cancel (hclosing.symm.trans hidle)
    simp [view, move, hin, hn]

/-- A worker stops to close the handler. -/
theorem view_closed (hw : s.worker w = .closing h) :
    ∃ n, (s.view h).closing = n + 1 ∧
      (s.move w .idle).view h = { s.view h with closing := n } := by
  have hout := countAt_update_out (p := (· = WorkerPc.closing h)) (b := .idle) hw (by simp)
  have hsame := countAt_update_same (p := (· = .processing h)) (f := s.worker) (i := w)
    (b := .idle) (by simp [hw])
  exact ⟨_, hout, by simp [view, move, hsame]⟩

/-! ### The other handlers -/

omit [DecidableEq ι] in
theorem view_modify_of_ne (hk : k ≠ h) : (s.modify h f).view k = s.view k := by
  simp [view, modify, hk]

omit [DecidableEq ι] in
/-- The reactor turns to `h` or from it. -/
theorem view_reactor_of_ne (hfrom : ∀ k, s.reactor.handler = some k → h = k)
    (hto : ∀ k, r.handler = some k → h = k) (hk : k ≠ h) :
    ({ s with reactor := r } : Dispatcher ι η).view k = s.view k := by
  simp [view, ReactorPc.place_of_ne hfrom hk, ReactorPc.place_of_ne hto hk]

omit [DecidableEq ι] in
theorem view_queue_of_ne (queue : List η) (hqueue : queue.count k = s.queue.count k) :
    ({ s with queue := queue } : Dispatcher ι η).view k = s.view k := by
  simp [view, hqueue]

omit [DecidableEq ι] in
theorem view_modify_reactor_of_ne (hfrom : ∀ k, s.reactor.handler = some k → h = k)
    (hto : ∀ k, r.handler = some k → h = k) (hk : k ≠ h) :
    ({ s.modify h f with reactor := r } : Dispatcher ι η).view k = s.view k :=
  (view_reactor_of_ne (s := s.modify h f) hfrom hto hk).trans (view_modify_of_ne hk)

/-- A worker turns to `h` or from it. -/
theorem view_move_of_ne (hfrom : ∀ k, (s.worker w).handler = some k → h = k)
    (hto : ∀ k, pc.handler = some k → h = k) (hk : k ≠ h) :
    (s.move w pc).view k = s.view k := by
  have hcount : ∀ q : WorkerPc η, q.handler = some k →
      countAt (· = q) (Function.update s.worker w pc) = countAt (· = q) s.worker := by
    intro q hq
    refine countAt_update_same (iff_of_false ?_ ?_)
    · rintro rfl
      exact hk (hfrom k hq).symm
    · rintro rfl
      exact hk (hto k hq).symm
  simp [view, move, hcount (.processing k) rfl, hcount (.closing k) rfl]

theorem view_modify_move_of_ne (hfrom : ∀ k, (s.worker w).handler = some k → h = k)
    (hto : ∀ k, pc.handler = some k → h = k) (hk : k ≠ h) :
    ((s.modify h f).move w pc).view k = s.view k :=
  (view_move_of_ne (s := s.modify h f) hfrom hto hk).trans (view_modify_of_ne hk)

/-! ### Steps by what they change -/

/-- The step is about `h`: it is a step of the view of `h`, and no other view changes. -/
def SeenBy (mode : Concurrency) (s : Dispatcher ι η) (e : Event ι η) (t : Dispatcher ι η)
    (h : η) : Prop :=
  s.subject e = some h ∧ ViewStep mode (s.view h) e.act (t.view h) ∧
    ∀ k, k ≠ h → t.view k = s.view k

omit [DecidableEq ι] in
theorem view_place (hreactor : s.reactor = r) : (s.view h).place = r.place h := by
  simp [view, hreactor]

omit [DecidableEq ι] in
/-- A step that changes the handler. -/
theorem SeenBy.of_modify (hsubject : s.subject e = some h)
    (hview : ViewStep mode (s.view h) e.act { s.view h with conn := f (s.conn h) }) :
    SeenBy mode s e (s.modify h f) h := by
  refine ⟨hsubject, ?_, fun k hk => view_modify_of_ne hk⟩
  rwa [view_modify]

omit [DecidableEq ι] in
/-- A step of the reactor from one place in the handler to another, which changes the
handler. -/
theorem SeenBy.of_modify_reactor (hsubject : s.subject e = some h)
    (hfrom : ∀ k, s.reactor.handler = some k → h = k)
    (hto : ∀ k, r.handler = some k → h = k)
    (hview : ViewStep mode (s.view h) e.act
      { s.view h with conn := f (s.conn h), place := r.place h }) :
    SeenBy mode s e { s.modify h f with reactor := r } h := by
  refine ⟨hsubject, ?_, fun k hk => view_modify_reactor_of_ne hfrom hto hk⟩
  have heq : ({ s.modify h f with reactor := r } : Dispatcher ι η).view h =
      { s.view h with conn := f (s.conn h), place := r.place h } := by
    rw [view_reactor (s := s.modify h f), view_modify]
  rwa [heq]

omit [DecidableEq ι] in
/-- A step of the reactor that leaves the handler as it is. -/
theorem SeenBy.of_reactor (hsubject : s.subject e = some h)
    (hfrom : ∀ k, s.reactor.handler = some k → h = k)
    (hto : ∀ k, r.handler = some k → h = k)
    (hview : ViewStep mode (s.view h) e.act { s.view h with place := r.place h }) :
    SeenBy mode s e { s with reactor := r } h :=
  ⟨hsubject, hview, fun _ hk => view_reactor_of_ne hfrom hto hk⟩

/-- A worker takes the handler out of the queue. -/
theorem SeenBy.of_start {queue : List η} (hsubject : s.subject e = some h)
    (hworker : s.worker w = .idle) (hqueue : s.queue = h :: queue)
    (hview : ViewStep mode (s.view h) e.act
      { s.view h with queued := queue.count h, processing := (s.view h).processing + 1 }) :
    SeenBy mode s e { s.move w (.processing h) with queue := queue } h := by
  refine ⟨hsubject, ?_, fun k hk => ?_⟩
  · rwa [view_starts hworker]
  · refine (view_queue_of_ne (s := s.move w (.processing h)) queue ?_).trans
      (view_move_of_ne (h := h) (by simp [hworker]) (by simp) hk)
    simp [move, hqueue, List.count_cons_of_ne hk.symm]

/-- A worker comes out of `process`, having changed the handler, and closes it or not. -/
theorem SeenBy.of_stop (hsubject : s.subject e = some h) (hworker : s.worker w = .processing h)
    (hpc : pc = .idle ∨ pc = .closing h)
    (hview : ∀ n, (s.view h).processing = n + 1 → ViewStep mode (s.view h) e.act
      { s.view h with
        conn := f (s.conn h)
        processing := n
        closing := (s.view h).closing + if pc = .idle then 0 else 1 }) :
    SeenBy mode s e ((s.modify h f).move w pc) h := by
  obtain ⟨n, hn, hidle, hclosing⟩ := view_stops (s := s.modify h f) hworker
  have hn' : (s.view h).processing = n + 1 := by simpa using hn
  have hstep := hview n hn'
  rcases hpc with rfl | rfl
  · refine ⟨hsubject, ?_, fun k hk => view_modify_move_of_ne (by simp [hworker]) (by simp) hk⟩
    rw [hidle]
    simpa using hstep
  · refine ⟨hsubject, ?_, fun k hk => view_modify_move_of_ne (by simp [hworker]) (by simp) hk⟩
    rw [hclosing]
    simpa using hstep

end Views

/-! ### Steps of an idle reactor -/

theorem seenBy_opens {h : η} {ok : Bool} (hstep : step mode s (.opens h ok) = some t) :
    SeenBy mode s (.opens h ok) t h := by
  simp only [step] at hstep
  split at hstep
  · rename_i hreactor hopened
    cases hstep
    exact SeenBy.of_modify rfl (.opens (view_place hreactor) hopened)
  · cases hstep

theorem seenBy_dispatches {h : η} (hstep : step mode s (.dispatches h) = some t) :
    SeenBy mode s (.dispatches h) t h := by
  simp only [step] at hstep
  split at hstep
  · rename_i hreactor hregistered
    have hplace : (s.view h).place = .elsewhere := view_place hreactor
    cases mode with
    | threadPool =>
        cases hstep
        refine SeenBy.of_modify_reactor rfl (by simp [hreactor]) (by simp) ?_
        simpa [Event.act, ReactorPc.place] using ViewStep.hands rfl hplace hregistered
    | singleThreaded | threadPerConnection =>
        cases hstep
        refine SeenBy.of_reactor rfl (by simp [hreactor]) (by simp) ?_
        simpa [Event.act, ReactorPc.place] using
          ViewStep.dispatches (by decide) hplace hregistered
  · cases hstep

theorem seenBy_closes {h : η} (hstep : step mode s (.closes h) = some t) :
    SeenBy mode s (.closes h) t h := by
  simp only [step] at hstep
  split at hstep
  · rename_i hreactor hregistered
    cases hstep
    refine SeenBy.of_modify_reactor rfl (by simp [hreactor]) (by simp) ?_
    simpa [Event.act, ReactorPc.place] using
      ViewStep.closes (v := s.view h) (view_place hreactor) hregistered
  · cases hstep

theorem seenBy_expires {h : η} (hstep : step mode s (.expires h) = some t) :
    SeenBy mode s (.expires h) t h := by
  simp only [step] at hstep
  split at hstep
  · rename_i hreactor htimer
    cases hstep
    refine SeenBy.of_reactor rfl (by simp [hreactor]) (by simp) ?_
    simpa [Event.act, ReactorPc.place] using
      ViewStep.expires (v := s.view h) (view_place hreactor) htimer
  · cases hstep

/-! ### Steps of a reactor with a handler -/

theorem seenBy_enqueues {ok : Bool} (hstep : step mode s (.enqueues ok) = some t) :
    ∃ h, SeenBy mode s (.enqueues ok) t h := by
  simp only [step] at hstep
  split at hstep
  · rename_i h hreactor
    have hsubject : s.subject (.enqueues ok) = some h := by simp [subject, hreactor]
    have hplace : (s.view h).place = .handing := by simp [view_place hreactor, ReactorPc.place]
    split at hstep
    · rename_i hok
      cases hstep
      refine ⟨h, hsubject, ?_, fun k hk => ?_⟩
      · simpa [Event.act, hok, view, ReactorPc.place] using ViewStep.enqueues hplace
      · refine (view_reactor_of_ne (s := { s with queue := s.queue ++ [h] }) (h := h)
          (by simp [hreactor]) (by simp) hk).trans (view_queue_of_ne _ ?_)
        simp [List.count_cons_of_ne hk.symm]
    · rename_i hok
      cases hstep
      refine ⟨h, SeenBy.of_modify_reactor hsubject (by simp [hreactor]) (by simp) ?_⟩
      simpa [Event.act, hok, ReactorPc.place] using ViewStep.enqueueFails hplace
  · cases hstep

theorem seenBy_reactorProcesses {rval : Int}
    (hstep : step mode s (.reactorProcesses rval) = some t) :
    ∃ h, SeenBy mode s (.reactorProcesses rval) t h := by
  simp only [step] at hstep
  split at hstep
  · rename_i h hreactor
    have hsubject : s.subject (.reactorProcesses rval) = some h := by simp [subject, hreactor]
    have hplace : (s.view h).place = .processing := by
      simp [view_place hreactor, ReactorPc.place]
    split at hstep
    · rename_i hrval
      cases hstep
      refine ⟨h, SeenBy.of_modify_reactor hsubject (by simp [hreactor]) (by simp) ?_⟩
      simpa [Event.act, hrval, ReactorPc.place] using ViewStep.reactorFinishes hplace
    · rename_i hrval
      cases hstep
      refine ⟨h, SeenBy.of_reactor hsubject (by simp [hreactor]) (by simp) ?_⟩
      simpa [Event.act, hrval, ReactorPc.place] using ViewStep.reactorProcesses hplace
  · cases hstep

theorem seenBy_reactorCloses (hstep : step mode s .reactorCloses = some t) :
    ∃ h, SeenBy mode s .reactorCloses t h := by
  simp only [step] at hstep
  split at hstep
  · rename_i h hreactor
    have hplace : (s.view h).place = .closing := by simp [view_place hreactor, ReactorPc.place]
    cases hstep
    refine ⟨h, SeenBy.of_modify_reactor (by simp [subject, hreactor]) (by simp [hreactor])
      (by simp) ?_⟩
    simpa [Event.act, ReactorPc.place] using ViewStep.reactorCloses hplace
  · cases hstep

theorem seenBy_decides {recognised idle : Bool}
    (hstep : step mode s (.decides recognised idle) = some t) :
    ∃ h, SeenBy mode s (.decides recognised idle) t h := by
  simp only [step] at hstep
  split at hstep
  · rename_i h hreactor
    have hsubject : s.subject (.decides recognised idle) = some h := by
      simp [subject, hreactor]
    have hplace : (s.view h).place = .inTimeout := by
      simp [view_place hreactor, ReactorPc.place]
    cases recognised <;> cases idle <;> cases hstep <;>
      refine ⟨h, SeenBy.of_reactor hsubject (by simp [hreactor]) (by simp) ?_⟩
    · simpa [Event.act, ReactorPc.place] using ViewStep.staysOpen hplace
    · simpa [Event.act, ReactorPc.place] using ViewStep.staysOpen hplace
    · simpa [Event.act, ReactorPc.place] using ViewStep.staysOpen hplace
    · simpa [Event.act, ReactorPc.place] using ViewStep.idleCloses hplace
  · cases hstep

theorem seenBy_removes (hstep : step mode s .removes = some t) :
    ∃ h, SeenBy mode s .removes t h := by
  simp only [step] at hstep
  split at hstep
  · rename_i h hreactor
    have hsubject : s.subject .removes = some h := by simp [subject, hreactor]
    have hplace : (s.view h).place = .removing := by
      simp [view_place hreactor, ReactorPc.place]
    split at hstep
    · rename_i hregistered
      cases hstep
      refine ⟨h, SeenBy.of_modify_reactor hsubject (by simp [hreactor]) (by simp) ?_⟩
      simpa [Event.act, ReactorPc.place] using
        ViewStep.removesRegistered hplace hregistered
    · rename_i hregistered
      cases hstep
      refine ⟨h, SeenBy.of_reactor hsubject (by simp [hreactor]) (by simp) ?_⟩
      simpa [Event.act, ReactorPc.place] using
        ViewStep.removes hplace (by simpa using hregistered)
  · cases hstep

theorem seenBy_destroys (hstep : step mode s .destroys = some t) :
    ∃ h, SeenBy mode s .destroys t h := by
  simp only [step] at hstep
  split at hstep
  · rename_i h hreactor
    have hplace : (s.view h).place = .destroying := by
      simp [view_place hreactor, ReactorPc.place]
    cases hstep
    refine ⟨h, SeenBy.of_modify_reactor (by simp [subject, hreactor]) (by simp [hreactor])
      (by simp) ?_⟩
    simpa [Event.act, ReactorPc.place] using ViewStep.destroys hplace
  · cases hstep

/-! ### Steps of the other threads -/

theorem seenBy_dequeues {w : ι} (hstep : step mode s (.dequeues w) = some t) :
    ∃ h, SeenBy mode s (.dequeues w) t h := by
  simp only [step] at hstep
  split at hstep
  · rename_i h queue hworker hqueue
    cases hstep
    refine ⟨h, SeenBy.of_start (by simp [subject, hqueue]) hworker hqueue ?_⟩
    exact .dequeues (by simp [view, hqueue])
  · cases hstep

theorem seenBy_workerProcesses {w : ι} {rval : Int} {registered : Bool}
    (hstep : step mode s (.workerProcesses w rval registered) = some t) :
    ∃ h, SeenBy mode s (.workerProcesses w rval registered) t h := by
  simp only [step] at hstep
  split at hstep
  · rename_i h hworker
    have hsubject : s.subject (.workerProcesses w rval registered) = some h := by
      simp [subject, hworker]
    split at hstep
    · rename_i hrval
      cases hstep
      refine ⟨h, SeenBy.of_stop hsubject hworker (Or.inr rfl) fun n hn => ?_⟩
      simpa [Event.act, hrval] using ViewStep.workerFinishes hn
    · rename_i hrval
      split at hstep
      · rename_i hregistered
        cases hstep
        refine ⟨h, SeenBy.of_stop hsubject hworker (Or.inl rfl) fun n hn => ?_⟩
        simpa [Event.act, hrval, hregistered] using ViewStep.workerRegisters hn
      · rename_i hregistered
        cases hstep
        obtain ⟨n, hn, hview, -⟩ := view_stops hworker
        refine ⟨h, hsubject, ?_, fun k => view_move_of_ne (by simp [hworker]) (by simp)⟩
        rw [hview]
        simpa [Event.act, hrval, hregistered] using ViewStep.workerRegisterFails hn
  · cases hstep

theorem seenBy_workerCloses {w : ι} (hstep : step mode s (.workerCloses w) = some t) :
    ∃ h, SeenBy mode s (.workerCloses w) t h := by
  simp only [step] at hstep
  split at hstep
  · rename_i h hworker
    cases hstep
    obtain ⟨n, hn, hview⟩ := view_closed (s := s.modify h Connection.destroy) hworker
    refine ⟨h, by simp [subject, hworker], ?_,
      fun k => view_modify_move_of_ne (by simp [hworker]) (by simp)⟩
    rw [hview]
    simpa [Event.act] using
      ViewStep.workerCloses (v := s.view h) (by simpa using hn)
  · cases hstep

theorem seenBy_threadProcesses {h : η} {rval : Int}
    (hstep : step mode s (.threadProcesses h rval) = some t) :
    SeenBy mode s (.threadProcesses h rval) t h := by
  simp only [step] at hstep
  split at hstep
  · rename_i hthread
    split at hstep
    · rename_i hrval
      cases hstep
      refine SeenBy.of_modify rfl ?_
      simpa [Event.act, hrval] using ViewStep.threadFinishes (v := s.view h) hthread
    · rename_i hrval
      cases hstep
      refine ⟨rfl, ?_, fun k _ => rfl⟩
      simpa [Event.act, hrval] using ViewStep.threadProcesses (v := s.view h) hthread
  · cases hstep

theorem seenBy_threadCloses {h : η} (hstep : step mode s (.threadCloses h) = some t) :
    SeenBy mode s (.threadCloses h) t h := by
  simp only [step] at hstep
  split at hstep
  · rename_i hthread
    cases hstep
    exact SeenBy.of_modify rfl (.threadCloses hthread)
  · cases hstep

/-- A step of the dispatcher is a step of the handler it is about, and leaves the views
of all the others as they were. -/
theorem step_view (hstep : step mode s e = some t) :
    ∃ h, s.subject e = some h ∧ ViewStep mode (s.view h) e.act (t.view h) ∧
      ∀ k, k ≠ h → t.view k = s.view k := by
  cases e with
  | opens h ok => exact ⟨h, seenBy_opens hstep⟩
  | dispatches h => exact ⟨h, seenBy_dispatches hstep⟩
  | enqueues ok => exact seenBy_enqueues hstep
  | reactorProcesses rval => exact seenBy_reactorProcesses hstep
  | closes h => exact ⟨h, seenBy_closes hstep⟩
  | reactorCloses => exact seenBy_reactorCloses hstep
  | dequeues w => exact seenBy_dequeues hstep
  | workerProcesses w rval registered => exact seenBy_workerProcesses hstep
  | workerCloses w => exact seenBy_workerCloses hstep
  | threadProcesses h rval => exact ⟨h, seenBy_threadProcesses hstep⟩
  | threadCloses h => exact ⟨h, seenBy_threadCloses hstep⟩
  | expires h => exact ⟨h, seenBy_expires hstep⟩
  | decides recognised idle => exact seenBy_decides hstep
  | removes => exact seenBy_removes hstep
  | destroys => exact seenBy_destroys hstep

end Dispatcher

end Dispatch

end CciDaemon
