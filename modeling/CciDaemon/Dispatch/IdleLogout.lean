import CciDaemon.Dispatch.Dispatcher

/-!
# Dispatch - The idle timer

`open` arms a timer, and `handle_timeout` closes a connection whose last activity lies too
far back.  The time of the last activity is taken in `handle_input`, while the bytes of a
request are consumed in `process`, which the connection's thread calls on its own in
thread-per-connection mode and which waits for more than one `recv` in every mode.

Main results:

- Definition `step`: one connection and the clock of the timer queue, with every entry
  into `handle_input` and every `recv` that brings bytes.
- Theorem `run_activity`: the time of the last activity is that of the last entry into
  `handle_input`.
- Theorem `handleTimeout_closes_iff`: a timeout closes exactly when no entry is recent.
- Theorem `idle_logout_iff`: a timeout spares the connections that received something
  exactly when `handle_input` was entered recently as well.
-/

namespace CciDaemon

open Transition

namespace Dispatch

/-- Where a connection is between `open` and its end. -/
inductive TimedPhase
  /-- Registered with the reactor, or between two calls of `process` in `svc`. -/
  | waiting
  /-- In the queue of the thread pool. -/
  | queued
  /-- In `process`. -/
  | processing
  | closed
deriving DecidableEq

/-- A connection and the clock of the timer queue.  `entries` and `received` are the
times at which `handle_input` was entered and at which a `recv` brought bytes. -/
structure TimedConnection where
  now : Nat
  lastActivityTime : Nat
  phase : TimedPhase
  entries : List Nat
  received : List Nat
deriving DecidableEq

/-- A step of the connection, or of the clock. -/
inductive TimedEvent
  | elapses (time : Nat)
  /-- The reactor calls `handle_input`. -/
  | dispatches
  /-- A worker of the pool calls `handle_input`. -/
  | dequeues
  /-- `svc` calls `process`. -/
  | svcProcesses
  /-- A `recv` of `process` returns more than zero. -/
  | receives
  /-- `process` returns. -/
  | returns (rval : Int)
  /-- The timer expires and the reactor calls `handle_timeout`. -/
  | expires
deriving DecidableEq

namespace TimedConnection

/-- A connection behind `open`; no member function has set `m_lastActivityTime`. -/
def opened (time : Nat) : TimedConnection where
  now := time
  lastActivityTime := 0
  phase := .waiting
  entries := []
  received := []

/-- The beginning of `handle_input`. -/
def enter (c : TimedConnection) : TimedConnection :=
  { c with lastActivityTime := c.now, entries := c.now :: c.entries }

/-- `handle_timeout`, when it recognises its timer. -/
def handleTimeout (maximumTimeToWait : Nat) (c : TimedConnection) : TimedConnection :=
  if c.now - c.lastActivityTime ≥ maximumTimeToWait then { c with phase := .closed } else c

/-- One step; {lit}`none` when the connection is somewhere else.  The timer does not
expire before `m_maximumTimeToWait` has passed since `open`. -/
def step (mode : Concurrency) (maximumTimeToWait openedAt : Nat) (c : TimedConnection) :
    TimedEvent → Option TimedConnection
  | .elapses time => some { c with now := c.now + time }
  | .dispatches =>
      match mode, c.phase with
      | .threadPerConnection, _ => none
      | .threadPool, .waiting => some { c.enter with phase := .queued }
      | .singleThreaded, .waiting => some { c.enter with phase := .processing }
      | _, _ => none
  | .dequeues =>
      match mode, c.phase with
      | .threadPool, .queued => some { c.enter with phase := .processing }
      | _, _ => none
  | .svcProcesses =>
      match mode, c.phase with
      | .threadPerConnection, .waiting => some { c with phase := .processing }
      | _, _ => none
  | .receives =>
      match c.phase with
      | .processing => some { c with received := c.now :: c.received }
      | _ => none
  | .returns rval =>
      match c.phase with
      | .processing => some { c with phase := if rval = -1 then .closed else .waiting }
      | _ => none
  | .expires =>
      if c.phase ≠ .closed ∧ openedAt + maximumTimeToWait ≤ c.now then
        some (c.handleTimeout maximumTimeToWait)
      else none

/-- Nothing has been received for at least `m_maximumTimeToWait`. -/
def Idle (maximumTimeToWait : Nat) (c : TimedConnection) : Prop :=
  ∀ time ∈ c.received, time + maximumTimeToWait ≤ c.now

/-- `handle_input` was entered less than `m_maximumTimeToWait` ago. -/
def RecentlyEntered (maximumTimeToWait : Nat) (c : TimedConnection) : Prop :=
  ∃ time ∈ c.entries, c.now < time + maximumTimeToWait

/-- A timeout closes the connection only if it is idle, and otherwise leaves it as it
is. -/
def SparesActive (maximumTimeToWait : Nat) (c : TimedConnection) : Prop :=
  ((c.handleTimeout maximumTimeToWait).phase = .closed → Idle maximumTimeToWait c) ∧
    (¬ Idle maximumTimeToWait c → c.handleTimeout maximumTimeToWait = c)

/-! ## The time of the last activity -/

/-- The time of the last activity is that of the latest entry into `handle_input`, or
zero before the first; a connection with its own thread never enters it. -/
structure Activity (mode : Concurrency) (c : TimedConnection) : Prop where
  latest : ∀ time ∈ c.entries, time ≤ c.lastActivityTime
  entered : c.lastActivityTime ∈ c.entries ∨ (c.lastActivityTime = 0 ∧ c.entries = [])
  past : c.lastActivityTime ≤ c.now
  thread : mode = .threadPerConnection → c.entries = []

variable {mode : Concurrency} {maximumTimeToWait openedAt : Nat} {c d : TimedConnection}

theorem opened_activity : Activity mode (opened openedAt) where
  latest := by simp [opened]
  entered := by simp [opened]
  past := Nat.zero_le _
  thread := fun _ => rfl

/-- An entry into `handle_input` becomes the latest one. -/
theorem Activity.enter (h : Activity mode c) (hmode : mode ≠ .threadPerConnection)
    (phase : TimedPhase) : Activity mode { c.enter with phase := phase } where
  latest := by
    intro time htime
    rcases List.mem_cons.mp htime with rfl | htime
    · exact le_rfl
    · exact (h.latest time htime).trans h.past
  entered := Or.inl List.mem_cons_self
  past := le_rfl
  thread := fun heq => absurd heq hmode

/-- Every step keeps the time of the last activity. -/
theorem step_activity (h : Activity mode c) {event : TimedEvent}
    (hstep : step mode maximumTimeToWait openedAt c event = some d) : Activity mode d := by
  have hphase : ∀ phase, Activity mode { c with phase := phase } :=
    fun phase => ⟨h.latest, h.entered, h.past, h.thread⟩
  cases event with
  | elapses time =>
      obtain rfl := Option.some.inj hstep
      exact ⟨h.latest, h.entered, h.past.trans (Nat.le_add_right _ _), h.thread⟩
  | dispatches =>
      simp only [step] at hstep
      split at hstep
      · cases hstep
      · obtain rfl := Option.some.inj hstep
        exact h.enter (by decide) _
      · obtain rfl := Option.some.inj hstep
        exact h.enter (by decide) _
      · cases hstep
  | dequeues =>
      simp only [step] at hstep
      split at hstep
      · obtain rfl := Option.some.inj hstep
        exact h.enter (by decide) _
      · cases hstep
  | svcProcesses =>
      simp only [step] at hstep
      split at hstep
      · obtain rfl := Option.some.inj hstep
        exact hphase _
      · cases hstep
  | receives =>
      simp only [step] at hstep
      split at hstep
      · obtain rfl := Option.some.inj hstep
        exact ⟨h.latest, h.entered, h.past, h.thread⟩
      · cases hstep
  | returns rval =>
      simp only [step] at hstep
      split at hstep
      · obtain rfl := Option.some.inj hstep
        exact hphase _
      · cases hstep
  | expires =>
      simp only [step] at hstep
      split at hstep
      · obtain rfl := Option.some.inj hstep
        unfold handleTimeout
        split
        · exact hphase _
        · exact h
      · cases hstep

/-- The time of the last activity in every state that a connection can reach. -/
theorem run_activity {events : List TimedEvent}
    (hrun : run (step mode maximumTimeToWait openedAt) (opened openedAt) events = some c) :
    Activity mode c :=
  run_invariant (fun _ _ _ h hstep => step_activity h hstep) opened_activity hrun

/-! ## Timeouts -/

/-- Once the timer can expire, a timeout closes the connection unless `handle_input` was
entered recently. -/
theorem handleTimeout_closes_iff (h : Activity mode c) (hopen : c.phase ≠ .closed)
    (hdue : openedAt + maximumTimeToWait ≤ c.now) :
    (c.handleTimeout maximumTimeToWait).phase = .closed ↔
      ¬ RecentlyEntered maximumTimeToWait c := by
  have hpast := h.past
  have hcloses : (c.handleTimeout maximumTimeToWait).phase = .closed ↔
      maximumTimeToWait ≤ c.now - c.lastActivityTime := by
    unfold handleTimeout
    split <;> simp_all
  rw [hcloses]
  constructor
  · rintro hlong ⟨time, htime, hrecent⟩
    have hle := h.latest time htime
    omega
  · intro hnone
    rcases h.entered with hmem | ⟨hzero, -⟩
    · by_contra hshort
      apply hnone
      exact ⟨_, hmem, by omega⟩
    · omega

/-- A timeout that does not close changes nothing. -/
theorem handleTimeout_eq_self (hclosed : (c.handleTimeout maximumTimeToWait).phase ≠ .closed) :
    c.handleTimeout maximumTimeToWait = c := by
  unfold handleTimeout at hclosed ⊢
  split at hclosed
  · exact absurd rfl hclosed
  · rename_i hlong
    rw [if_neg hlong]

/-- Idle logout.  In every state of every run of a connection at which the timer can
expire, `handle_timeout` closes the connection only if nothing has been received for
`m_maximumTimeToWait`, and otherwise leaves it open, if and only if nothing has been
received for that long or `handle_input` was entered more recently; and the thread of a
connection never enters `handle_input`. -/
theorem idle_logout_iff {events : List TimedEvent}
    (hrun : run (step mode maximumTimeToWait openedAt) (opened openedAt) events = some c)
    (hopen : c.phase ≠ .closed) (hdue : openedAt + maximumTimeToWait ≤ c.now) :
    (SparesActive maximumTimeToWait c ↔
        Idle maximumTimeToWait c ∨ RecentlyEntered maximumTimeToWait c) ∧
      (mode = .threadPerConnection → ¬ RecentlyEntered maximumTimeToWait c) := by
  have hactivity := run_activity hrun
  have hcloses := handleTimeout_closes_iff hactivity hopen hdue
  constructor
  · constructor
    · rintro ⟨honly, -⟩
      by_cases hentered : RecentlyEntered maximumTimeToWait c
      · exact Or.inr hentered
      · exact Or.inl (honly (hcloses.mpr hentered))
    · rintro (hidle | hentered)
      · exact ⟨fun _ => hidle, fun hnot => absurd hidle hnot⟩
      · have hstays : (c.handleTimeout maximumTimeToWait).phase ≠ .closed :=
          fun hclosed => hcloses.mp hclosed hentered
        exact ⟨fun hclosed => absurd hclosed hstays, fun _ => handleTimeout_eq_self hstays⟩
  · rintro hmode ⟨time, htime, -⟩
    rw [hactivity.thread hmode] at htime
    cases htime

/-- A client that sends a request a second before the timer expires, half an hour after
it has connected. -/
def requestBeforeExpiry : List TimedEvent :=
  [.elapses 1799, .svcProcesses, .receives, .returns 0, .elapses 1]

theorem idle_logout_requestBeforeExpiry :
    ∃ c, run (step .threadPerConnection 1800 0) (opened 0) requestBeforeExpiry = some c ∧
      ((SparesActive 1800 c ↔ Idle 1800 c ∨ RecentlyEntered 1800 c) ∧
        (Concurrency.threadPerConnection = .threadPerConnection → ¬ RecentlyEntered 1800 c)) :=
  ⟨_, rfl, idle_logout_iff
    (show run (step .threadPerConnection 1800 0) (opened 0) requestBeforeExpiry = some _ from rfl)
    (by decide) (by decide)⟩

/-- The connection is closed one second after it has received a request. -/
theorem handleTimeout_closes_active :
    ¬ ∀ mode maximumTimeToWait openedAt events c, mode ≠ .singleThreaded →
      run (step mode maximumTimeToWait openedAt) (opened openedAt) events = some c →
      c.phase ≠ .closed → openedAt + maximumTimeToWait ≤ c.now →
        SparesActive maximumTimeToWait c := by
  intro hclaim
  have hspares := hclaim .threadPerConnection 1800 0 requestBeforeExpiry _ (by decide) rfl
    (by decide) (by decide)
  have hidle := hspares.1 (by decide) 1799 (by decide)
  exact absurd hidle (by decide)

end TimedConnection

end Dispatch

end CciDaemon
