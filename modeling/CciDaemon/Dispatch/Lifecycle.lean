import CciDaemon.Dispatch.Callers
import CciDaemon.Dispatch.Timer

/-!
# Dispatch - The end of a handler

Five paths end in `delete this`: a failed `open`, `handle_close` on the reactor's thread
and on a worker, `close` on the thread of the connection, and `handle_timeout`.  On the
first four the handler has one place and gives it up by the deletion.  `handle_timeout`
asks for none: it removes the handler with `READ_MASK`, which calls `handle_close` if
the handler is registered, and deletes it another time, whoever has it.

A place is given away before the member function that gives it away has returned: behind
`register_handler`, `enqueue` or `activate` the handler is in the hands of another thread, which
may delete it.

Main results:

- Definition `Threads.step`: the dispatcher, with the threads that have not returned yet.
- Definition `DestroyedOnce`: a handler is deleted once, and is not used after that.
- Theorem `handler_lifecycle_iff`: the runs that keep it, in every concurrency mode.
- Theorem `run_not_removing`: with a null `timer_id`, `handle_timeout` deletes nothing.
-/

namespace CciDaemon

open Transition Counting

namespace Dispatch

variable {mode : Concurrency}

/-! ## The life of one handler -/

/-- The reactor is inside `handle_timeout`. -/
def Place.inHandleTimeout (p : Place) : Prop :=
  p = .inTimeout ∨ p = .removing ∨ p = .destroying

/-- The steps in which a thread destroys the handler, whoever has it. -/
def Act.Deletes : Act → Prop
  | .destroysBehind | .reactorCloses | .destroys => True
  | _ => False

namespace View

variable {v v' : View} {a : Act}

/-- The places of a handler, the reactor apart. -/
def held (v : View) : Nat :=
  v.conn.thread.tokens + v.queued + v.processing + v.closing

/-- `handle_timeout` removes a handler that is not registered and destroys it when
nobody else has it, and nobody else destroys a handler during its `handle_timeout`. -/
def Orderly (v : View) : Act → Prop
  | .removes => v.conn.registered = false
  | .destroys => v.held = 0
  | .destroysBehind => ¬ v.place.inHandleTimeout
  | _ => True

/-- A destroyed handler has been destroyed once, and nothing leads to it any more. -/
structure Gone (v : View) : Prop where
  once : v.conn.destroyed = 1
  opened : v.conn.opened = true
  unregistered : v.conn.registered = false
  untimed : v.conn.timer = false
  unheld : v.held = 0
  elsewhere : v.place = .elsewhere

/-- A handler has one place until it is destroyed, and none after that. -/
structure Sound (v : View) : Prop where
  custody : v.Custody
  gone : 0 < v.conn.destroyed → v.Gone

/-- No step is about a destroyed handler. -/
theorem Gone.not_step (hv : v.Gone) : ¬ ViewStep mode v a v' := by
  intro hstep
  have hheld := hv.unheld
  simp only [held] at hheld
  cases hstep with
  | opens hplace hopened => simp [hv.opened] at hopened
  | hands _ _ hregistered | dispatches _ _ hregistered | closes _ hregistered =>
      simp [hv.unregistered] at hregistered
  | expires _ htimer => simp [hv.untimed] at htimer
  | dequeues hn | workerRegisters hn | workerRegisterFails hn | workerFinishes hn
  | workerCloses hn => omega
  | threadProcesses hthread | threadFinishes hthread | threadCloses hthread =>
      simp [hthread, ThreadPc.tokens] at hheld
  | enqueues hplace | enqueueFails hplace | reactorProcesses hplace | reactorFinishes hplace
  | reactorCloses hplace | staysOpen hplace | idleCloses hplace | removesRegistered hplace _
  | removes hplace _ | destroys hplace => simp [hv.elsewhere] at hplace

/-- While a worker or the thread of the connection closes a handler, the reactor is
elsewhere, or inside its `handle_timeout`. -/
theorem Custody.elsewhere (hv : v.Custody) (hheld : 0 < v.held)
    (htimeout : ¬ v.place.inHandleTimeout) : v.place = .elsewhere := by
  have hone := hv.one
  simp only [tokens, users, Connection.tokens] at hone
  simp only [held] at hheld
  cases hplace : v.place with
  | elsewhere => rfl
  | handing | closing =>
      simp only [hplace, Place.tokens] at hone
      omega
  | processing =>
      have halone := hv.of_registered (hv.processing hplace)
      omega
  | inTimeout | removing | destroying => simp [Place.inHandleTimeout, hplace] at htimeout

/-- An orderly step keeps the handler sound. -/
theorem Sound.step (hv : v.Sound) (hok : v.Orderly a) (hstep : ViewStep mode v a v') :
    v'.Sound where
  custody := hv.custody.step hstep
  gone hdestroyed := by
    by_cases hnot : v.conn.destroyed = 0
    · have hopened := hv.custody.opened hstep
      have hone := hv.custody.one
      simp only [tokens, users, Connection.tokens] at hone
      -- the handler is destroyed by this step, and its one place goes with it
      cases hstep with
      | @opens ok hplace hunopened =>
          obtain rfl := hv.custody.unopened hunopened
          cases ok with
          | false => exact ⟨rfl, rfl, rfl, rfl, rfl, rfl⟩
          | true =>
              cases mode <;>
                simp [Connection.openHandler, fresh, Connection.fresh] at hdestroyed
      | reactorCloses hplace =>
          refine ⟨by simp [Connection.destroy, hnot], hopened, rfl, rfl, ?_, rfl⟩
          simp only [hplace, Place.tokens] at hone
          simp only [held, Connection.destroy]
          omega
      | @workerCloses n hn =>
          refine ⟨by simp [Connection.destroy, hnot], hopened, rfl, rfl, ?_, ?_⟩
          · simp only [held, Connection.destroy]
            omega
          · exact hv.custody.elsewhere (by simp only [held]; omega) hok
      | threadCloses hthread =>
          simp only [hthread, ThreadPc.tokens] at hone
          refine ⟨by simp [Connection.destroy, hnot], hopened, rfl, rfl, ?_, ?_⟩
          · simp only [held, ThreadPc.tokens]
            omega
          · exact hv.custody.elsewhere (by simp [held, hthread, ThreadPc.tokens]) hok
      | removesRegistered hplace hregistered => simp [Orderly, hregistered] at hok
      | destroys hplace =>
          exact ⟨by simp [Connection.destroy, hnot], hopened, rfl, rfl, hok, rfl⟩
      | _ =>
          have hbefore : 0 < v.conn.destroyed := hdestroyed
          omega
    · exact absurd hstep (hv.gone (Nat.pos_of_ne_zero hnot)).not_step

/-- The handler is destroyed at most once, and nobody has it after that. -/
def DestroyedOnce (v : View) : Prop :=
  v.conn.destroyed ≤ 1 ∧ (0 < v.conn.destroyed → v.held = 0 ∧ v.place = .elsewhere)

theorem Sound.destroyedOnce (hv : v.Sound) : v.DestroyedOnce := by
  by_cases hnot : v.conn.destroyed = 0
  · simp [DestroyedOnce, hnot]
  · have hgone := hv.gone (Nat.pos_of_ne_zero hnot)
    exact ⟨hgone.once.le, fun _ => ⟨hgone.unheld, hgone.elsewhere⟩⟩

theorem ne_opens_of_opened (hopened : v.conn.opened = true) (hstep : ViewStep mode v a v') :
    a ≠ .opens := by
  rintro rfl
  cases hstep with
  | opens hplace hnot => simp [hopened] at hnot

/-- A handler that is not destroyed by an orderly step is alive behind it if it was before. -/
theorem destroyed_of_step (hok : v.Orderly a) (ha : ¬ a.Deletes) (hopens : a ≠ .opens)
    (hstep : ViewStep mode v a v') : v'.conn.destroyed = v.conn.destroyed := by
  cases hstep with
  | opens hplace hopened => exact absurd rfl hopens
  | workerCloses hn | threadCloses hthread => exact absurd trivial ha
  | reactorCloses hplace | destroys hplace => exact absurd trivial ha
  | removesRegistered hplace hregistered => simp [Orderly, hregistered] at hok
  | _ => rfl

/-- And one that is destroyed is not. -/
theorem destroyed_pos_of_deletes (ha : a.Deletes) (hstep : ViewStep mode v a v') :
    0 < v'.conn.destroyed := by
  cases hstep <;> first | exact ha.elim | exact Nat.succ_pos _

/-- Any other step destroys a handler that somebody has. -/
theorem not_destroyedOnce_of_disorderly (hok : ¬ v.Orderly a) (hstep : ViewStep mode v a v') :
    ¬ v'.DestroyedOnce := by
  rintro ⟨-, hafter⟩
  cases hstep with
  | workerCloses hn | threadCloses hthread =>
      apply hok
      intro htimeout
      have hplace : v.place = .elsewhere := (hafter (Nat.succ_pos _)).2
      simp [Place.inHandleTimeout, hplace] at htimeout
  | removesRegistered hplace hregistered => cases (hafter (Nat.succ_pos _)).2
  | removes hplace hregistered => exact hok hregistered
  | destroys hplace => exact hok (hafter (Nat.succ_pos _)).1
  | _ => exact hok trivial

end View

/-! ## All handlers -/

namespace Dispatcher

variable {ι η : Type} [DecidableEq ι] [DecidableEq η] {s t : Dispatcher ι η} {e : Event ι η}
  {h : η}

/-- The handler stands in the queue of the pool, or a worker or its own thread has it. -/
def Held (s : Dispatcher ι η) (h : η) : Prop :=
  h ∈ s.queue ∨ (∃ w, (s.worker w).handler = some h) ∨
    (s.conn h).thread = .running ∨ (s.conn h).thread = .closing

/-- The reactor is inside `handle_timeout` of the handler. -/
def InHandleTimeout (s : Dispatcher ι η) (h : η) : Prop :=
  s.reactor = .inTimeout h ∨ s.reactor = .removing h ∨ s.reactor = .destroying h

/-- Every handler is destroyed at most once, and after that no thread is in one of its
member functions and the queue has no entry for it. -/
def DestroyedOnce (s : Dispatcher ι η) : Prop :=
  ∀ h, (s.conn h).destroyed ≤ 1 ∧
    (0 < (s.conn h).destroyed → ¬ s.Held h ∧ s.reactor.handler ≠ some h)

/-- `handle_timeout` calls `remove_handler` for a handler that is not registered and
`destroy` for one that nobody else has, and no other thread destroys a handler while the
reactor is inside its `handle_timeout`. -/
def Orderly (s : Dispatcher ι η) : Event ι η → Prop
  | .removes => ∀ h, s.reactor = .removing h → (s.conn h).registered = false
  | .destroys => ∀ h, s.reactor = .destroying h → ¬ s.Held h
  | .workerCloses w => ∀ h, s.worker w = .closing h → ¬ s.InHandleTimeout h
  | .threadCloses h => ¬ s.InHandleTimeout h
  | _ => True

omit [DecidableEq ι] in
theorem place_eq_elsewhere_iff [Fintype ι] :
    (s.view h).place = .elsewhere ↔ s.reactor.handler ≠ some h := by
  cases hreactor : s.reactor <;> simp [view, hreactor, ReactorPc.place]

omit [DecidableEq ι] in
theorem inHandleTimeout_iff [Fintype ι] :
    (s.view h).place.inHandleTimeout ↔ s.InHandleTimeout h := by
  simp only [view, Place.inHandleTimeout, InHandleTimeout]
  cases s.reactor with
  | idle => simp [ReactorPc.place]
  | handing k | processing k | closing k | inTimeout k | removing k | destroying k =>
      by_cases hk : k = h <;> simp [ReactorPc.place, hk]

omit [DecidableEq ι] in
theorem held_eq_zero_iff [Fintype ι] : (s.view h).held = 0 ↔ ¬ s.Held h := by
  have hthread : (s.conn h).thread.tokens = 0 ↔
      ¬ ((s.conn h).thread = .running ∨ (s.conn h).thread = .closing) := by
    cases (s.conn h).thread <;> simp [ThreadPc.tokens]
  simp only [View.held, Held, WorkerPc.handler_eq_some_iff, Nat.add_eq_zero_iff, view,
    List.count_eq_zero, countAt_eq_zero_iff, hthread]
  constructor
  · rintro ⟨⟨⟨hgone, hqueue⟩, hprocessing⟩, hclosing⟩ (hin | ⟨w, hw | hw⟩ | hin)
    · exact hqueue hin
    · exact hprocessing w hw
    · exact hclosing w hw
    · exact hgone hin
  · intro hnot
    refine ⟨⟨⟨fun hin => hnot (.inr (.inr hin)), fun hin => hnot (.inl hin)⟩, fun w hw => ?_⟩,
      fun w hw => ?_⟩
    · exact hnot (.inr (.inl ⟨w, .inl hw⟩))
    · exact hnot (.inr (.inl ⟨w, .inr hw⟩))

omit [DecidableEq ι] in
theorem destroyedOnce_iff [Fintype ι] :
    s.DestroyedOnce ↔ ∀ h, (s.view h).DestroyedOnce := by
  simp only [DestroyedOnce, View.DestroyedOnce, held_eq_zero_iff, place_eq_elsewhere_iff,
    view_conn]

/-- A step is orderly if it is so for the handler it is about. -/
theorem orderly_iff [Fintype ι] (hstep : step mode s e = some t) (hh : s.subject e = some h) :
    s.Orderly e ↔ (s.view h).Orderly e.act := by
  cases e with
  | removes =>
      simp only [step] at hstep
      split at hstep
      · rename_i k hreactor
        obtain rfl : k = h := by simpa [subject, hreactor] using hh
        simp [Orderly, View.Orderly, Event.act, hreactor]
      · cases hstep
  | destroys =>
      simp only [step] at hstep
      split at hstep
      · rename_i k hreactor
        obtain rfl : k = h := by simpa [subject, hreactor] using hh
        simp [Orderly, View.Orderly, Event.act, hreactor, held_eq_zero_iff]
      · cases hstep
  | workerCloses w =>
      simp only [step] at hstep
      split at hstep
      · rename_i k hworker
        obtain rfl : k = h := by simpa [subject, hworker] using hh
        simp [Orderly, View.Orderly, Event.act, hworker, inHandleTimeout_iff]
      · cases hstep
  | threadCloses k =>
      obtain rfl : k = h := by simpa [subject] using hh
      simp [Orderly, View.Orderly, Event.act, inHandleTimeout_iff]
  | enqueues ok => cases ok <;> exact Iff.rfl
  | reactorProcesses rval | threadProcesses k rval =>
      by_cases hrval : rval = -1 <;> simp [Orderly, View.Orderly, Event.act, hrval]
  | workerProcesses w rval registered =>
      by_cases hrval : rval = -1 <;> cases registered <;>
        simp [Orderly, View.Orderly, Event.act, hrval]
  | decides recognised idle => cases recognised <;> cases idle <;> exact Iff.rfl
  | _ => exact Iff.rfl

/-- An orderly step keeps every handler sound. -/
theorem sound_step [Fintype ι] (hs : ∀ h, (s.view h).Sound) (hok : s.Orderly e)
    (hstep : step mode s e = some t) (h : η) : (t.view h).Sound :=
  forall_view hs hstep (fun k _ hk hview => (hs k).step ((orderly_iff hstep hk).mp hok) hview) h

/-- Any other step destroys a handler that somebody has. -/
theorem not_destroyedOnce_of_disorderly [Fintype ι] (hok : ¬ s.Orderly e)
    (hstep : step mode s e = some t) : ¬ t.DestroyedOnce := by
  intro hafter
  obtain ⟨k, hk, hview, -⟩ := step_view hstep
  exact View.not_destroyedOnce_of_disorderly (fun h' => hok ((orderly_iff hstep hk).mpr h'))
    hview (destroyedOnce_iff.mp hafter k)

/-- No step is about a destroyed handler. -/
theorem alive_of_subject [Fintype ι] (hs : ∀ h, (s.view h).Sound) (hstep : step mode s e = some t)
    (hh : s.subject e = some h) : (s.conn h).destroyed = 0 := by
  by_contra hdestroyed
  obtain ⟨k, hk, hview, -⟩ := step_view hstep
  obtain rfl : h = k := Option.some.inj (hh.symm.trans hk)
  exact ((hs h).gone (Nat.pos_of_ne_zero hdestroyed)).not_step hview

end Dispatcher

/-! ## Threads that have not returned -/

namespace Event

variable {ι η : Type}

/-- The thread that takes the step. -/
def thread : Event ι η → Caller ι η
  | .opens _ _ | .dispatches _ | .enqueues _ | .reactorProcesses _ | .closes _ => .reactor
  | .reactorCloses | .expires _ | .decides _ _ | .removes | .destroys => .reactor
  | .dequeues w | .workerProcesses w _ _ | .workerCloses w => .worker w
  | .threadProcesses h _ | .threadCloses h => .connection h

/-- Behind the step its thread is still in `open`, in `handle_input` or in `handle_timeout`, and
has nothing to do there but to return. -/
def leaves : Event ι η → Bool
  | .opens _ ok => ok
  | .enqueues _ => true
  | .reactorProcesses rval | .workerProcesses _ rval _ => rval ≠ -1
  | .decides recognised idle => !(recognised && idle)
  | _ => false

/-- The first test of `handle_timeout` comes out like this.  Where `*sui` is undefined, it does not
come out at all. -/
def reads (memory : Memory) (timerId : UInt16) : Event ι η → Bool
  | .decides recognised _ =>
      (memory.object (toPointer timerId)).map (· == timerId) == some recognised
  | _ => true

/-- Such a step opens a handler, or it neither opens nor destroys one. -/
theorem quiet_of_leaves {e : Event ι η} (he : e.leaves = true) :
    (∃ h, e = .opens h true) ∨
      e.act ≠ .opens ∧ ¬ e.act.Deletes ∧ ∀ v : View, v.Orderly e.act := by
  cases e with
  | opens h ok => exact Or.inl ⟨h, congrArg _ he⟩
  | enqueues ok => cases ok <;> simp [act, Act.Deletes, View.Orderly]
  | reactorProcesses rval =>
      have hrval : rval ≠ -1 := by simpa [leaves] using he
      simp [act, hrval, Act.Deletes, View.Orderly]
  | workerProcesses w rval registered =>
      have hrval : rval ≠ -1 := by simpa [leaves] using he
      cases registered <;> simp [act, hrval, Act.Deletes, View.Orderly]
  | decides recognised idle =>
      have hstays : (recognised && idle) = false := by
        simpa only [leaves, Bool.not_eq_true'] using he
      simp [act, hstays, Act.Deletes, View.Orderly]
  | _ => cases he

end Event

/-- The dispatcher, and the threads that are on their way out of a member function of a
handler. -/
structure Threads (ι η : Type) where
  dispatcher : Dispatcher ι η
  leaving : Caller ι η → Option η

/-- A step of a thread, or its return from a member function. -/
inductive ThreadEvent (ι η : Type)
  | steps (e : Event ι η)
  | returns (thread : Caller ι η)

namespace Threads

variable {ι η : Type} [DecidableEq ι] [DecidableEq η]

def start : Threads ι η where
  dispatcher := Dispatcher.start
  leaving := fun _ => none

/-- One step of one thread, which has returned from the member function it was in before. -/
def step (memory : Memory) (timerId : UInt16) (mode : Concurrency) (s : Threads ι η) :
    ThreadEvent ι η → Option (Threads ι η)
  | .steps e =>
      if s.leaving e.thread = none ∧ e.reads memory timerId then
        (s.dispatcher.step mode e).map fun dispatcher =>
          { dispatcher := dispatcher
            leaving := Function.update s.leaving e.thread
              (if e.leaves then s.dispatcher.subject e else none) }
      else none
  | .returns thread =>
      if s.leaving thread = none then none
      else some { s with leaving := Function.update s.leaving thread none }

variable {memory : Memory} {timerId : UInt16} {mode : Concurrency} {s t : Threads ι η}
  {e : ThreadEvent ι η} {h : η}

/-- Every handler is destroyed at most once, and after that no thread is in one of its
member functions and the queue has no entry for it. -/
def DestroyedOnce (s : Threads ι η) : Prop :=
  s.dispatcher.DestroyedOnce ∧
    ∀ h, 0 < (s.dispatcher.conn h).destroyed → ∀ thread, s.leaving thread ≠ some h

/-- The step is orderly for the dispatcher; and no thread destroys a handler while another one is
on its way out of a member function of the handler. -/
def Orderly (s : Threads ι η) : ThreadEvent ι η → Prop
  | .steps e =>
      s.dispatcher.Orderly e ∧
        (e.act.Deletes → ∀ h, s.dispatcher.subject e = some h → ∀ thread, s.leaving thread ≠ some h)
  | .returns _ => True

/-- Every handler is sound, and alive while a thread is on its way out of it. -/
structure Inv [Fintype ι] (s : Threads ι η) : Prop where
  sound : ∀ h, (s.dispatcher.view h).Sound
  alive : ∀ thread h, s.leaving thread = some h →
    (s.dispatcher.conn h).opened = true ∧ (s.dispatcher.conn h).destroyed = 0

/-- A step of the dispatcher, by a thread that has returned. -/
theorem step_steps {e : Event ι η} (hstep : step memory timerId mode s (.steps e) = some t) :
    s.leaving e.thread = none ∧ e.reads memory timerId = true ∧
      s.dispatcher.step mode e = some t.dispatcher ∧
      t.leaving = Function.update s.leaving e.thread
        (if e.leaves then s.dispatcher.subject e else none) := by
  simp only [step] at hstep
  split at hstep
  · rename_i hcan
    obtain ⟨dispatcher, hdispatcher, rfl⟩ := Option.map_eq_some_iff.mp hstep
    exact ⟨hcan.1, hcan.2, hdispatcher, rfl⟩
  · cases hstep

theorem step_returns {thread : Caller ι η}
    (hstep : step memory timerId mode s (.returns thread) = some t) :
    t = { s with leaving := Function.update s.leaving thread none } := by
  simp only [step] at hstep
  split at hstep
  · cases hstep
  · exact (Option.some.inj hstep).symm

/-! ### The invariant -/

section Invariant

variable [Fintype ι]

omit [DecidableEq ι] in
theorem start_inv : Inv (start : Threads ι η) where
  sound := by
    intro h
    rw [start, Dispatcher.view_start]
    exact ⟨⟨fun _ => rfl, by decide, by decide⟩, fun hdestroyed => absurd hdestroyed (by decide)⟩
  alive := by simp [start]

omit [DecidableEq ι] in
theorem Inv.destroyedOnce (hs : Inv s) : s.DestroyedOnce := by
  refine ⟨Dispatcher.destroyedOnce_iff.mpr fun h => (hs.sound h).destroyedOnce, ?_⟩
  intro h hdestroyed thread hleaving
  have halive := (hs.alive thread h hleaving).2
  omega

/-- A handler that a thread begins to leave is alive. -/
theorem Inv.alive_of_leaves (hs : Inv s) {e : Event ι η} {d : Dispatcher ι η}
    (hstep : s.dispatcher.step mode e = some d) (hleaves : e.leaves = true)
    (hh : s.dispatcher.subject e = some h) :
    (d.conn h).opened = true ∧ (d.conn h).destroyed = 0 := by
  obtain ⟨k, hk, hview, -⟩ := Dispatcher.step_view hstep
  obtain rfl : h = k := Option.some.inj (hh.symm.trans hk)
  refine ⟨(hs.sound h).custody.opened hview, ?_⟩
  have halive := Dispatcher.alive_of_subject hs.sound hstep hh
  rcases Event.quiet_of_leaves hleaves with ⟨k, rfl⟩ | ⟨hopens, hdeletes, hok⟩
  · obtain rfl : k = h := Option.some.inj hh
    obtain ⟨-, -, rfl⟩ := Dispatcher.step_opens hstep
    cases mode <;> simpa [Dispatcher.modify, Connection.openHandler] using halive
  · exact (View.destroyed_of_step (hok _) hdeletes hopens hview).trans halive

/-- A handler stays alive while a thread is on its way out of it. -/
theorem Inv.alive_of_step (hs : Inv s) {e : Event ι η} {d : Dispatcher ι η}
    (hok : s.Orderly (.steps e)) (hstep : s.dispatcher.step mode e = some d)
    {thread : Caller ι η} (hleaving : s.leaving thread = some h) :
    (d.conn h).opened = true ∧ (d.conn h).destroyed = 0 := by
  obtain ⟨hopened, halive⟩ := hs.alive thread h hleaving
  obtain ⟨k, hk, hview, hother⟩ := Dispatcher.step_view hstep
  by_cases hh : h = k
  · subst hh
    have hopens : e.act ≠ .opens := View.ne_opens_of_opened hopened hview
    have hdeletes : ¬ e.act.Deletes := fun hdeletes => hok.2 hdeletes h hk thread hleaving
    have hsame := View.destroyed_of_step ((Dispatcher.orderly_iff hstep hk).mp hok.1) hdeletes
      hopens hview
    exact ⟨(hs.sound h).custody.opened hview, hsame.trans halive⟩
  · have hconn : d.conn h = s.dispatcher.conn h := congrArg View.conn (hother h hh)
    rw [hconn]
    exact ⟨hopened, halive⟩

/-- An orderly step keeps the invariant. -/
theorem Inv.step (hs : Inv s) (hok : s.Orderly e)
    (hstep : step memory timerId mode s e = some t) : Inv t := by
  cases e with
  | returns returned =>
      obtain rfl := step_returns hstep
      refine ⟨hs.sound, fun thread h hleaving => ?_⟩
      by_cases hthread : thread = returned
      · simp [hthread] at hleaving
      · have hbefore : s.leaving thread = some h := by simpa [hthread] using hleaving
        exact hs.alive thread h hbefore
  | steps e =>
      obtain ⟨-, -, hdispatcher, hleft⟩ := step_steps hstep
      refine ⟨Dispatcher.sound_step hs.sound hok.1 hdispatcher, fun thread h hleaving => ?_⟩
      rw [hleft] at hleaving
      by_cases hthread : thread = e.thread
      · subst hthread
        rw [Function.update_self] at hleaving
        split at hleaving
        · rename_i hleaves
          exact hs.alive_of_leaves hdispatcher hleaves hleaving
        · cases hleaving
      · rw [Function.update_of_ne hthread] at hleaving
        exact hs.alive_of_step hok hdispatcher hleaving

/-- Any other step destroys a handler that somebody has, or is in. -/
theorem not_destroyedOnce_of_disorderly (hok : ¬ s.Orderly e)
    (hstep : Threads.step memory timerId mode s e = some t) : ¬ t.DestroyedOnce := by
  cases e with
  | returns thread => exact absurd trivial hok
  | steps e =>
      obtain ⟨hfree, -, hdispatcher, hleft⟩ := step_steps hstep
      rintro ⟨honce, hafter⟩
      apply hok
      refine ⟨?_, fun hdeletes h hh thread hleaving => ?_⟩
      · by_contra hnot
        exact Dispatcher.not_destroyedOnce_of_disorderly hnot hdispatcher honce
      · obtain ⟨k, hk, hview, -⟩ := Dispatcher.step_view hdispatcher
        obtain rfl : h = k := Option.some.inj (hh.symm.trans hk)
        have hthread : thread ≠ e.thread := by
          rintro rfl
          simp [hfree] at hleaving
        apply hafter h (View.destroyed_pos_of_deletes hdeletes hview) thread
        rw [hleft, Function.update_of_ne hthread]
        exact hleaving

end Invariant

/-! ### Every run -/

/-- Handler lifecycle, for every concurrency mode, any number of handlers and workers,
and every interleaving: each handler is destroyed at most once and not used after that,
in every state of a run, if and only if the steps of the run are orderly. -/
theorem handler_lifecycle_iff [Fintype ι] {events : List (ThreadEvent ι η)} {u : Threads ι η}
    (hrun : run (step memory timerId mode) start events = some u) :
    Always (step memory timerId mode) DestroyedOnce start events ↔
      Guarded (step memory timerId mode) Orderly start events :=
  always_iff_guarded (fun _ hs => hs.destroyedOnce) (fun _ _ _ hs hok hstep => hs.step hok hstep)
    (fun _ _ _ _ hok hstep => not_destroyedOnce_of_disorderly hok hstep) start_inv hrun

/-- A connection that a worker closes, with every thread back from the handler. -/
def served : List (ThreadEvent Unit Unit) :=
  [.steps (.opens () true), .returns .reactor, .steps (.dispatches ()), .steps (.enqueues true),
    .returns .reactor, .steps (.dequeues ()), .steps (.workerProcesses () (-1) true),
    .steps (.workerCloses ())]

theorem handler_lifecycle_served :
    Always (step Memory.empty procTimerId .threadPool) DestroyedOnce start served := by
  apply (handler_lifecycle_iff (u := _) rfl).mpr
  refine .cons ⟨trivial, False.elim⟩ rfl <| .cons trivial rfl <|
    .cons ⟨trivial, False.elim⟩ rfl <| .cons ⟨trivial, False.elim⟩ rfl <| .cons trivial rfl <|
    .cons ⟨trivial, False.elim⟩ rfl <| .cons ⟨trivial, False.elim⟩ rfl <|
    .cons ⟨?_, fun _ h _ thread => ?_⟩ rfl trivial
  · rintro h - (htimeout | htimeout | htimeout) <;> cases htimeout
  · rcases thread with _ | ⟨⟨⟩⟩ | ⟨⟨⟩⟩ <;> exact fun hleaving => nomatch hleaving

/-- Two workers of the pool: the second one closes the handler while the first is behind its
`register_handler`. -/
def twoWorkers : List (ThreadEvent Party Unit) :=
  [.steps (.opens () true), .returns .reactor, .steps (.dispatches ()), .steps (.enqueues true),
    .returns .reactor, .steps (.dequeues .first), .steps (.workerProcesses .first 0 true),
    .steps (.dispatches ()), .steps (.enqueues true), .returns .reactor,
    .steps (.dequeues .second), .steps (.workerProcesses .second (-1) true),
    .steps (.workerCloses .second)]

/-- A worker closes the handler while the reactor is in its `handle_timeout`. -/
def closedInTimeout : List (ThreadEvent Unit Unit) :=
  [.steps (.opens () true), .returns .reactor, .steps (.dispatches ()), .steps (.enqueues true),
    .returns .reactor, .steps (.dequeues ()), .steps (.workerProcesses () (-1) true),
    .steps (.expires ()), .steps (.workerCloses ())]

/-- No token is read: the second worker destroys the handler in whose `handle_input` the first one
is, and the worker the one in whose `handle_timeout` the reactor is. -/
theorem worker_destroys_used_handler :
    (¬ ∀ (memory : Memory) (mode : Concurrency) (ι η : Type) [DecidableEq ι] [DecidableEq η]
        (events : List (ThreadEvent ι η)),
        Always (step memory procTimerId mode) DestroyedOnce start events) ∧
      ∀ memory, ∃ t, run (step memory procTimerId .threadPool) start closedInTimeout = some t ∧
        (t.dispatcher.conn ()).destroyed = 1 ∧ t.dispatcher.reactor = .inTimeout () := by
  refine ⟨fun hclaim => ?_, fun memory => ⟨_, rfl, rfl, rfl⟩⟩
  have hafter := hclaim Memory.empty .threadPool Party Unit twoWorkers twoWorkers
    (List.prefix_refl _) _ rfl
  exact hafter.2 () (by decide) (.worker .first) rfl

/-! ### A null token -/

omit [DecidableEq ι] [DecidableEq η] in
/-- With the `timer_id` of either class `handle_timeout` does not get behind its first test. -/
theorem reads_decides_of_null (hid : timerId = procTimerId ∨ timerId = authMgrTimerId)
    (recognised idle : Bool) :
    (Event.decides recognised idle : Event ι η).reads memory timerId = false := by
  have hnull : toPointer timerId = 0 := by rcases hid with rfl | rfl <;> rfl
  simp [Event.reads, hnull, memory.null]

/-- So it removes no handler, and destroys none. -/
theorem run_not_removing (hid : timerId = procTimerId ∨ timerId = authMgrTimerId)
    {events : List (ThreadEvent ι η)} {u : Threads ι η}
    (hrun : run (step memory timerId mode) start events = some u) (h : η) :
    u.dispatcher.reactor ≠ .removing h ∧ u.dispatcher.reactor ≠ .destroying h := by
  refine run_invariant (I := fun s => ∀ h, s.dispatcher.reactor ≠ .removing h ∧
    s.dispatcher.reactor ≠ .destroying h) (fun s e t hs hstep h => ?_)
    (fun h => by simp [start, Dispatcher.start]) hrun h
  cases e with
  | returns thread =>
      obtain rfl := step_returns hstep
      exact hs h
  | steps e =>
      obtain ⟨-, hreads, hdispatcher, -⟩ := step_steps hstep
      cases e with
      | decides recognised idle => simp [reads_decides_of_null hid] at hreads
      | _ =>
          simp only [Dispatcher.step] at hdispatcher
          grind [Dispatcher.modify, Dispatcher.move]

end Threads

end Dispatch

end CciDaemon
