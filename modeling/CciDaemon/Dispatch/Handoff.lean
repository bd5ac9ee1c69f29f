import CciDaemon.Dispatch.Custody

/-!
# Dispatch - The hand-off in the thread pool

In thread pool mode `handle_input` runs twice for a request: on the reactor's thread it
takes the handler out of the reactor and puts it into the queue, on a worker it
processes the request and puts the handler back.  Between the two the handler is a
token that the threads pass on.

Main results:

- Definition `wakeups`: where the token of a handler is.
- Theorem `mutual_exclusion`: in every run a handler has at most one, and exactly one
  while it serves, if `register_handler` does not fail; so one thread at a time processes
  its requests.
- Theorem `unregistered_loses_wakeup`: it has none after a `register_handler` that fails.
-/

namespace CciDaemon

open Transition Counting

namespace Dispatch

/-! ## One handler -/

namespace View

variable {v v' : View} {a : Act}

/-- The places from which the next `process` of a handler comes. -/
def wakeups (v : View) : Nat :=
  v.conn.registered.toNat + (if v.place = .handing then 1 else 0) + v.queued +
    (v.processing + v.closing)

theorem wakeups_le_tokens (v : View) : v.wakeups ≤ v.tokens := by
  have hplace : (if v.place = .handing then 1 else 0) ≤ v.place.tokens := by
    cases v.place <;> decide
  simp only [wakeups, tokens, users, Connection.tokens]
  omega

/-- In thread pool mode only the workers process requests. -/
structure Pooled (v : View) : Prop where
  absent : v.conn.thread = .absent
  notProcessing : v.place ≠ .processing

theorem Pooled.step (hv : v.Pooled) (hstep : ViewStep .threadPool v a v') : v'.Pooled where
  absent := by
    cases hstep with
    | @opens ok hplace hopened => cases ok <;> exact hv.absent
    | threadFinishes hthread | threadCloses hthread => simp [hv.absent] at hthread
    | _ => exact hv.absent
  notProcessing := by
    cases hstep with
    | dispatches hmode => exact absurd rfl hmode
    | opens | dequeues | workerRegisters | workerRegisterFails | workerFinishes | workerCloses
    | threadProcesses | threadFinishes | threadCloses => exact hv.notProcessing
    | _ => exact Place.noConfusion

/-- A handler that serves is still to be processed. -/
structure Serving (v : View) : Prop where
  pooled : v.Pooled
  awaited : v.conn.opened = true → v.conn.destroyed = 0 → v.conn.finished = false →
    1 ≤ v.wakeups

/-- A reactor that shuts down and a failing `register_handler` apart, no step loses the
token of a handler that serves. -/
theorem Serving.step (hv : v.Serving) (hstep : ViewStep .threadPool v a v') (hclose : a ≠ .closes)
    (hregister : a ≠ .registerFails) : v'.Serving where
  pooled := hv.pooled.step hstep
  awaited hopened hlive hserving := by
    cases hstep with
    | @opens ok hplace hunopened =>
        cases ok with
        | true =>
            simp only [wakeups, Connection.openHandler, if_true, Bool.toNat_true]
            omega
        | false => simp [Connection.openHandler, Connection.destroy] at hlive
    | hands hmode hplace hregistered =>
        simp only [wakeups, if_true]
        omega
    | enqueues hplace | dequeues hn =>
        simp only [wakeups]
        omega
    | workerRegisters hn =>
        simp only [wakeups, Connection.register, Bool.toNat_true]
        omega
    | expires hplace _ | staysOpen hplace | idleCloses hplace | removes hplace _ =>
        have hbefore := hv.awaited hopened hlive hserving
        simpa [wakeups, hplace] using hbefore
    | threadProcesses hthread => exact hv.awaited hopened hlive hserving
    | threadFinishes hthread => simp [hv.pooled.absent] at hthread
    | dispatches hmode _ _ => exact absurd rfl hmode
    | reactorProcesses hplace | reactorFinishes hplace =>
        exact absurd hplace hv.pooled.notProcessing
    | closes _ _ => exact absurd rfl hclose
    | workerRegisterFails hn => exact absurd rfl hregister
    | enqueueFails hplace | workerFinishes hn => simp [Connection.finish] at hserving
    | reactorCloses hplace | workerCloses hn | removesRegistered hplace _ | destroys hplace
    | threadCloses hthread => simp [Connection.destroy] at hlive

end View

/-! ## All handlers -/

namespace Dispatcher

variable {ι η : Type} [DecidableEq ι] [DecidableEq η] [Fintype ι] {s : Dispatcher ι η} {h : η}

/-- Whether the handler is registered, whether the reactor's thread is between removing
and enqueuing it, its entries in the queue, and the workers between dequeuing and
registering it. -/
def wakeups (s : Dispatcher ι η) (h : η) : Nat :=
  (s.conn h).registered.toNat + (if s.reactor = .handing h then 1 else 0) +
    s.queue.count h + countAt (fun pc => pc.handler = some h) s.worker

/-- The handler has been opened and not been destroyed. -/
def Live (s : Dispatcher ι η) (h : η) : Prop :=
  (s.conn h).opened = true ∧ (s.conn h).destroyed = 0

/-- No two threads process requests of the handler. -/
def ProcessedByOne (s : Dispatcher ι η) (h : η) : Prop :=
  (∀ w w', s.worker w = .processing h → s.worker w' = .processing h → w = w') ∧
    s.reactor ≠ .processing h ∧ (s.conn h).thread ≠ .running

/-- What `handle_input` relies on when it puts a handler back, and does not ask. -/
def RegisterHandlerSucceeds : Event ι η → Prop
  | .workerProcesses _ rval registered => rval ≠ -1 → registered = true
  | _ => True

theorem view_wakeups (h : η) : (s.view h).wakeups = s.wakeups h := by
  have hplace : (s.view h).place = .handing ↔ s.reactor = .handing h := by
    simp only [view]
    cases s.reactor with
    | idle => simp [ReactorPc.place]
    | handing k | processing k | closing k | inTimeout k | removing k | destroying k =>
        by_cases hk : k = h <;> simp [ReactorPc.place, hk]
  have hworkers := countAt_or (p := (· = WorkerPc.processing h)) (q := (· = .closing h))
    (f := s.worker) (by rintro b rfl hb; cases hb)
  simp only [View.wakeups, wakeups, WorkerPc.handler_eq_some_iff, hplace, hworkers]
  rfl

/-- In every run of the thread pool mode, the workers alone process requests. -/
theorem run_pooled {events : List (Event ι η)}
    (hrun : run (step .threadPool) start events = some s) (h : η) : (s.view h).Pooled :=
  run_view ⟨rfl, by decide⟩ (fun _ _ _ hv hview => hv.step hview) hrun h

/-- No step shuts the reactor down or fails to put a handler back. -/
def HandsOff (e : Event ι η) : Prop :=
  RegisterHandlerSucceeds e ∧ ∀ k, e ≠ .closes k

omit [DecidableEq ι] [DecidableEq η] [Fintype ι] in
theorem HandsOff.act {e : Event ι η} (he : HandsOff e) :
    e.act ≠ .closes ∧ e.act ≠ .registerFails := by
  obtain ⟨hregister, hclose⟩ := he
  cases e with
  | closes k => exact absurd rfl (hclose k)
  | workerProcesses w rval registered =>
      by_cases hrval : rval = -1
      · simp [Event.act, hrval]
      · simp [Event.act, hrval, hregister hrval]
  | enqueues ok => cases ok <;> simp [Event.act]
  | reactorProcesses rval | threadProcesses k rval =>
      by_cases hrval : rval = -1 <;> simp [Event.act, hrval]
  | decides recognised idle => cases recognised <;> cases idle <;> simp [Event.act]
  | _ => simp [Event.act]

/-- No read wake-up is lost in a run of such steps. -/
theorem run_serving {events : List (Event ι η)} (hevents : ∀ e ∈ events, HandsOff e)
    (hrun : run (step .threadPool) start events = some s) (h : η) : (s.view h).Serving := by
  refine Guarded.invariant (I := fun s => ∀ h, (s.view h).Serving)
    (fun s e t hs hok hstep => ?_) (fun h => ?_) (Guarded.of_forall hevents) hrun h
  · exact forall_view hs hstep fun h v' _ hview => (hs h).step hview hok.act.1 hok.act.2
  · refine ⟨run_pooled (run_nil _) h, fun hopened => ?_⟩
    cases hopened

omit [DecidableEq ι] in
/-- One token, one thread. -/
theorem processedByOne (hs : (s.view h).Pooled) (hcustody : (s.view h).Custody) :
    s.ProcessedByOne h := by
  have hone := hcustody.one
  refine ⟨fun w w' hw hw' => ?_, fun hreactor => ?_, by simp [← view_conn, hs.absent]⟩
  · have hcount : countAt (· = .processing h) s.worker ≤ 1 := by
      simp only [View.tokens, View.users, view] at hone
      omega
    exact eq_of_countAt_le_one hcount hw hw'
  · exact hs.notProcessing (by simp [view, hreactor, ReactorPc.place])

/-- Mutual exclusion, for any number of connections and workers and every interleaving:
a handler is never in two of its places, and, if every `register_handler` of a worker
succeeds, a live one is in exactly one of them until an `enqueue` of it fails or its
`process` returns -1. -/
theorem mutual_exclusion {events : List (Event ι η)}
    (hrun : run (step .threadPool) start events = some s) (h : η) :
    s.wakeups h ≤ 1 ∧ s.ProcessedByOne h ∧
      ((∀ e ∈ events, RegisterHandlerSucceeds e) → (∀ k, .closes k ∉ events) →
        s.Live h → (s.conn h).finished = false → s.wakeups h = 1) := by
  have hcustody := run_custody hrun h
  have hle : s.wakeups h ≤ 1 := by
    rw [← view_wakeups]
    exact (View.wakeups_le_tokens _).trans hcustody.one
  refine ⟨hle, processedByOne (run_pooled hrun h) hcustody, ?_⟩
  intro hregister hclose hlive hserving
  have hevents : ∀ e ∈ events, HandsOff e := fun e he =>
    ⟨hregister e he, fun k hk => hclose k (hk ▸ he)⟩
  have hge := (run_serving hevents hrun h).awaited hlive.1 hlive.2 hserving
  rw [view_wakeups] at hge
  exact hle.antisymm hge

/-- Two connections and two workers; the reactor dispatches the first connection again
as soon as the second worker has put it back. -/
def handoff : List (Event Party Party) :=
  [.opens .first true, .opens .second true, .dispatches .first, .enqueues true,
    .dispatches .second, .dequeues .second, .enqueues true, .dequeues .first,
    .workerProcesses .second 0 true, .dispatches .first, .enqueues true, .dequeues .second]

theorem mutual_exclusion_handoff :
    ∃ s, run (step .threadPool) start handoff = some s ∧ ∀ h, s.wakeups h = 1 := by
  have hrun : run (step .threadPool) start handoff = some _ := rfl
  refine ⟨_, hrun, fun h => (mutual_exclusion hrun h).2.2 ?_ ?_ ?_ ?_⟩
  · simp [handoff, RegisterHandlerSucceeds]
  · simp [handoff]
  · cases h with
    | first => exact ⟨rfl, rfl⟩
    | second => exact ⟨rfl, rfl⟩
  · cases h with
    | first => rfl
    | second => rfl

/-- A request whose worker cannot put the handler back. -/
def unregistered : List (Event Unit Unit) :=
  [.opens () true, .dispatches (), .enqueues true, .dequeues (), .workerProcesses () 0 false]

/-- No further request of the client is read, although the handler is alive and its `process`
has not failed. -/
theorem unregistered_loses_wakeup :
    (¬ ∀ (ι η : Type) [DecidableEq ι] [DecidableEq η] [Fintype ι] (events : List (Event ι η))
        (s : Dispatcher ι η) (h : η), run (step .threadPool) start events = some s →
        (∀ k, .closes k ∉ events) → s.Live h → (s.conn h).finished = false →
        s.wakeups h = 1) ∧
      (run (step .threadPool) start unregistered).map (·.wakeups ()) = some 0 := by
  refine ⟨fun hclaim => ?_, rfl⟩
  have hone := hclaim Unit Unit unregistered _ () rfl (by simp [unregistered]) ⟨rfl, rfl⟩ rfl
  exact absurd hone (by decide)

end Dispatcher

end Dispatch

end CciDaemon
