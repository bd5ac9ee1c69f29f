import CciDaemon.Dispatch.View

/-!
# Dispatch - Custody of a handler

A handler may be registered with the reactor, stand in the queue of the pool, or be in
the hands of a thread.  Whatever the reactor, the workers and the thread of the
connection do, and in every concurrency mode, no step of theirs makes two of these out
of one.

Main results:

- Definition `tokens`: the places where the handler is, counted.
- Theorem `ViewStep.tokens_le`: only `open` adds to them.
- Theorem `forall_view`: what a step keeps of its handler, it keeps of all handlers.
- Theorem `run_view`: what every step of a handler keeps, every run keeps.
- Theorem `run_custody`: in every run, no handler has two places.
-/

namespace CciDaemon

open Transition

namespace Dispatch

/-! ## Counting the places -/

/-- The thread of a connection has the handler from `activate` on, until it has called
`close`. -/
def ThreadPc.tokens : ThreadPc → Nat
  | running | closing => 1
  | absent | gone => 0

/-- In `handle_input` without a pool, and in `handle_timeout`, the reactor works on a
handler that has its place elsewhere. -/
def Place.tokens : Place → Nat
  | handing | closing => 1
  | elsewhere | processing | inTimeout | removing | destroying => 0

namespace Connection

variable (c : Connection)

/-- The places of a handler on the side of the connection. -/
def tokens : Nat :=
  c.registered.toNat + c.thread.tokens

@[simp] theorem tokens_finish : c.finish.tokens = c.tokens := rfl

@[simp] theorem tokens_unregister : c.unregister.tokens = c.thread.tokens :=
  Nat.zero_add _

@[simp] theorem tokens_register : c.register.tokens = c.thread.tokens + 1 :=
  Nat.add_comm _ _

@[simp] theorem tokens_destroy : c.destroy.tokens = c.thread.tokens :=
  Nat.zero_add _

theorem tokens_of_registered {c : Connection} (h : c.registered = true) :
    c.tokens = c.thread.tokens + 1 := by
  rw [tokens, h]
  exact Nat.add_comm _ _

theorem thread_le_tokens : c.thread.tokens ≤ c.tokens :=
  Nat.le_add_left _ _

end Connection

namespace View

/-- A handler before `open`. -/
def fresh : View where
  conn := Connection.fresh
  place := .elsewhere
  queued := 0
  processing := 0
  closing := 0

/-- The places of a handler, the reactor's thread apart. -/
def users (v : View) : Nat :=
  v.conn.tokens + v.queued + v.processing + v.closing

/-- The places of a handler. -/
def tokens (v : View) : Nat :=
  v.users + v.place.tokens

/-- A handler has at most one place.  While the reactor processes it, that is the
reactor. -/
structure Custody (v : View) : Prop where
  unopened : v.conn.opened = false → v = fresh
  one : v.tokens ≤ 1
  processing : v.place = .processing → v.conn.registered = true

end View

open View

variable {mode : Concurrency} {v v' : View} {a : Act}

/-! ## One step -/

/-- Only `open` gives a handler a new place. -/
theorem ViewStep.tokens_le (hstep : ViewStep mode v a v') (ha : a ≠ .opens)
    (hv : v.place = .processing → v.conn.registered = true) : v'.tokens ≤ v.tokens := by
  have hdestroy := v.conn.thread_le_tokens
  cases hstep with
  | opens hplace hopened => exact absurd rfl ha
  | reactorFinishes hplace =>
      simp only [tokens, users, Connection.tokens_finish, Connection.tokens_unregister,
        Connection.tokens_of_registered (hv hplace), hplace, Place.tokens]
      omega
  | hands hmode hplace hregistered | closes hplace hregistered =>
      simp only [tokens, users, Connection.tokens_unregister,
        Connection.tokens_of_registered hregistered, hplace, Place.tokens]
      omega
  | dispatches hmode hplace hregistered | expires hplace htimer | removes hplace hregistered =>
      simp only [tokens, users, hplace, Place.tokens, le_refl]
  | reactorProcesses hplace | staysOpen hplace | idleCloses hplace =>
      simp only [tokens, users, hplace, Place.tokens, le_refl]
  | enqueues hplace | enqueueFails hplace =>
      simp only [tokens, users, Connection.tokens_finish, hplace, Place.tokens]
      omega
  | reactorCloses hplace | removesRegistered hplace hregistered | destroys hplace =>
      simp only [tokens, users, Connection.tokens_destroy, hplace, Place.tokens]
      omega
  | dequeues hn | workerRegisterFails hn =>
      simp only [tokens, users, hn]
      omega
  | workerRegisters hn | workerFinishes hn | workerCloses hn =>
      simp only [tokens, users, Connection.tokens_register, Connection.tokens_finish,
        Connection.tokens_destroy, hn]
      omega
  | threadProcesses hthread => exact le_rfl
  | threadFinishes hthread | threadCloses hthread =>
      simp only [tokens, users, Connection.tokens, Connection.destroy, hthread, ThreadPc.tokens,
        Bool.toNat_false]
      omega

namespace View.Custody

/-- `open` is the first step. -/
theorem opened (hv : v.Custody) (hstep : ViewStep mode v a v') : v'.conn.opened = true := by
  cases hopened : v.conn.opened with
  | true =>
      cases hstep with
      | opens hplace hnot => simp [hopened] at hnot
      | _ => exact hopened
  | false =>
      obtain rfl := hv.unopened hopened
      cases hstep with
      | @opens ok hplace hnot => cases ok <;> cases mode <;> rfl
      | _ => simp_all [fresh, Connection.fresh]

/-- `open` gives a handler its first place. -/
theorem tokens_openHandler (hv : v.Custody) (hopened : v.conn.opened = false) {ok : Bool} :
    View.tokens { v with conn := v.conn.openHandler mode ok } ≤ 1 := by
  obtain rfl := hv.unopened hopened
  cases ok <;> cases mode <;> decide

/-- A registered handler has no other place. -/
theorem of_registered (hv : v.Custody) (hregistered : v.conn.registered = true) :
    v.queued = 0 ∧ v.processing = 0 ∧ v.closing = 0 ∧ v.conn.thread.tokens = 0 := by
  have hone := hv.one
  simp only [tokens, users, Connection.tokens_of_registered hregistered] at hone
  omega

/-- A step does not give a handler a second place. -/
theorem step (hv : v.Custody) (hstep : ViewStep mode v a v') : v'.Custody where
  unopened hnot := by simp [hv.opened hstep] at hnot
  one := by
    by_cases ha : a = .opens
    · subst ha
      cases hstep with
      | opens hplace hopened => exact hv.tokens_openHandler hopened
    · exact (hstep.tokens_le ha hv.processing).trans hv.one
  processing hprocessing := by
    cases hstep with
    | dispatches hmode hplace hregistered => exact hregistered
    | workerRegisters hn => rfl
    | workerCloses hn =>
        have halone := hv.of_registered (hv.processing hprocessing)
        omega
    | threadCloses hthread =>
        have halone := hv.of_registered (hv.processing hprocessing)
        simp [hthread, ThreadPc.tokens] at halone
    | opens hplace hopened => simp [hplace] at hprocessing
    | dequeues hn | workerRegisterFails hn | workerFinishes hn => exact hv.processing hprocessing
    | threadProcesses hthread | threadFinishes hthread => exact hv.processing hprocessing
    | _ => cases hprocessing

end View.Custody

/-! ## All handlers -/

namespace Dispatcher

variable {ι η : Type} [DecidableEq ι] [DecidableEq η] [Fintype ι] {s t : Dispatcher ι η}
  {e : Event ι η}

omit [DecidableEq ι] in
@[simp] theorem view_start (h : η) : (start : Dispatcher ι η).view h = fresh := by
  simp [view, start, fresh, Counting.countAt, ReactorPc.place]

/-- What holds of every view holds after a step, if the step keeps it of the view of the
handler it is about. -/
theorem forall_view {I : View → Prop} (hs : ∀ h, I (s.view h)) (hstep : step mode s e = some t)
    (hkeep : ∀ h v', s.subject e = some h → ViewStep mode (s.view h) e.act v' → I v') (h : η) :
    I (t.view h) := by
  obtain ⟨k, hsubject, hview, hother⟩ := step_view hstep
  by_cases hk : h = k
  · subst hk
    exact hkeep h _ hsubject hview
  · rw [hother h hk]
    exact hs h

/-- What `open` finds, and every step of a handler keeps, holds of all handlers in every
run. -/
theorem run_view {I : View → Prop} (hfresh : I fresh)
    (hkeep : ∀ v a v', I v → ViewStep mode v a v' → I v') {es : List (Event ι η)}
    (hrun : run (step mode) start es = some t) (h : η) : I (t.view h) := by
  refine run_invariant (I := fun s => ∀ h, I (s.view h)) (fun s e t hs hstep => ?_)
    (fun h => ?_) hrun h
  · exact forall_view hs hstep fun h v' _ hview => hkeep _ _ _ (hs h) hview
  · rw [view_start]
    exact hfresh

/-- In every run, no handler has two places. -/
theorem run_custody {es : List (Event ι η)} (hrun : run (step mode) start es = some t) (h : η) :
    (t.view h).Custody :=
  run_view ⟨fun _ => rfl, by decide, by decide⟩ (fun _ _ _ hv hview => hv.step hview) hrun h

end Dispatcher

end Dispatch

end CciDaemon
