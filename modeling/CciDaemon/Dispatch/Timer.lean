import CciDaemon.Foundations.Transition
import Mathlib.Algebra.Order.Floor.Semiring
import Mathlib.Data.Rat.Floor
import Mathlib.Tactic.Linarith

/-!
# Dispatch - The timer of a handler

`open` arms a timer that expires after `m_maximumTimeToWait` and from then on every sixtieth
part of that, in whole seconds.  Its argument is the number `timer_id` itself, cast to a
pointer; `handle_timeout` takes this argument for the address of an `unsigned short` and
reads it.  Both handler classes have the same code.

Of the timer queue the model takes what the handlers rely on: a timer expires when its time
has come, is armed again for the next multiple of its interval that lies ahead, and is
dropped when the interval is zero; `handle_timeout` gets the argument that the timer was
armed with.

Main results:

- Definition `step`: the timer queue of a reactor and the clock.
- Theorem `run_onSchedule`: every timer in the queue is on the schedule of its handler.
- Theorem `timer_recurrence_iff`: when the schedule has an expiry in which an idle
  connection is found.
- Theorem `timer_token_iff`: when `handle_timeout` recognises its timer.
-/

namespace CciDaemon

open Transition

namespace Dispatch

/-- The value of a `void*`. -/
abbrev Address := UInt64

/-- `(void*) timer_id`. -/
def toPointer (timerId : UInt16) : Address :=
  timerId.toUInt64

/-- The objects of type `unsigned short` that are alive, by their addresses. -/
structure Memory where
  object : Address → Option UInt16
  null : object 0 = none

/-- The memory without any. -/
def Memory.empty : Memory where
  object := fun _ => none
  null := rfl

/-- `timer_id` of `proc_ace_acceptor.h`. -/
def procTimerId : UInt16 := 0

/-- `timer_id` of `auth_ace_manager.h`. -/
def authMgrTimerId : UInt16 := 0

/-- `max_client_timeout`: the seconds of `m_maximumTimeToWait`, if nothing else is said. -/
def maxClientTimeout : Nat := 1800

/-! ## One timer -/

/-- A timer in the queue; times are in seconds. -/
structure Timer where
  act : Address
  expiry : ℚ
  interval : ℚ
deriving DecidableEq

namespace Timer

/-- The timer that `open` arms. -/
def armed (maximumTimeToWait : Nat) (timerId : UInt16) (openedAt : ℚ) : Timer where
  act := toPointer timerId
  expiry := openedAt + maximumTimeToWait
  -- `m_maximumTimeToWait.sec() / 60`
  interval := (maximumTimeToWait / 60 : Nat)

/-- What is left of a timer that has expired: with an interval of zero, nothing. -/
def rearm (timer : Timer) : Option Timer :=
  if 0 < timer.interval then some { timer with expiry := timer.expiry + timer.interval }
  else none

/-- The timer behind `n` of its expiries. -/
def after (timer : Timer) : Nat → Option Timer
  | 0 => some timer
  | n + 1 => (timer.after n).bind rearm

/-- The schedule of a timer. -/
theorem after_eq_some_iff {timer next : Timer} {n : Nat} :
    timer.after n = some next ↔
      (n = 0 ∨ 0 < timer.interval) ∧
        next = { timer with expiry := timer.expiry + n * timer.interval } := by
  induction n generalizing next with
  | zero => simp [after, eq_comm (a := timer)]
  | succ n ih =>
      rw [after, Option.bind_eq_some_iff]
      constructor
      · rintro ⟨last, hlast, hnext⟩
        obtain ⟨-, rfl⟩ := ih.mp hlast
        unfold rearm at hnext
        split at hnext
        · rename_i hpos
          obtain rfl := Option.some.inj hnext
          refine ⟨Or.inr hpos, ?_⟩
          push_cast
          congr 1
          ring
        · cases hnext
      · rintro ⟨hpos, rfl⟩
        have hpos' := hpos.resolve_left (Nat.succ_ne_zero n)
        refine ⟨_, ih.mpr ⟨Or.inr hpos', rfl⟩, ?_⟩
        rw [rearm, if_pos hpos']
        push_cast
        congr 2
        ring

theorem after_add (timer : Timer) (m n : Nat) :
    timer.after (m + n) = (timer.after m).bind fun t => t.after n := by
  induction n with
  | zero => simp [after]
  | succ n ih =>
      rw [← Nat.add_assoc, after, ih, Option.bind_assoc]
      rfl

/-- Whatever the queue does with a timer, its argument stays. -/
theorem after_act {timer next : Timer} {n : Nat} (h : timer.after n = some next) :
    next.act = timer.act := by
  obtain ⟨-, rfl⟩ := after_eq_some_iff.mp h
  rfl

end Timer

/-! ## The timer queue -/

/-- What the timer of a handler depends on. -/
structure TimerConfig where
  maximumTimeToWait : Nat
  timerId : UInt16

/-- The timer queue of a reactor.  `openedAt` is the time of the last `open` of each handler;
the queue does not use it. -/
structure TimerQueue (η : Type) where
  now : ℚ
  pending : η → Option Timer
  openedAt : η → ℚ

/-- A step of the reactor, or of the clock. -/
inductive TimerEvent (η : Type)
  | elapses (time : ℚ)
  /-- `open` arms the timer of a handler. -/
  | opens (h : η)
  /-- The timer of a handler expires, and `handle_timeout` is called; `missed` further
  expiries have passed meanwhile. -/
  | expires (h : η) (missed : Nat)
  /-- The handler is deleted, and its timer cancelled. -/
  | cancels (h : η)

namespace TimerQueue

variable {η : Type} [DecidableEq η] {config : η → TimerConfig} {s s' : TimerQueue η}

/-- An empty queue. -/
def start (time : ℚ) : TimerQueue η where
  now := time
  pending := fun _ => none
  openedAt := fun _ => time

/-- The timer has expired, and its next expiry is the first that lies ahead. -/
def Due (timer : Timer) (missed : Nat) (now : ℚ) : Prop :=
  timer.expiry + missed * timer.interval ≤ now ∧
    ∀ next ∈ timer.after (missed + 1), now < next.expiry

instance (timer : Timer) (missed : Nat) (now : ℚ) : Decidable (Due timer missed now) :=
  inferInstanceAs (Decidable (_ ∧ _))

/-- One step; {lit}`none` when no timer of the handler has expired. -/
def step (config : η → TimerConfig) (s : TimerQueue η) : TimerEvent η → Option (TimerQueue η)
  | .elapses time => if 0 ≤ time then some { s with now := s.now + time } else none
  | .opens h =>
      let timer := Timer.armed (config h).maximumTimeToWait (config h).timerId s.now
      some { s with
        pending := Function.update s.pending h (some timer)
        openedAt := Function.update s.openedAt h s.now }
  | .expires h missed =>
      match s.pending h with
      | none => none
      | some timer =>
          if Due timer missed s.now then
            some { s with pending := Function.update s.pending h (timer.after (missed + 1)) }
          else none
  | .cancels h => some { s with pending := Function.update s.pending h none }

/-- Every timer in the queue is the one that `open` armed, behind some of its expiries. -/
def OnSchedule (config : η → TimerConfig) (s : TimerQueue η) : Prop :=
  ∀ h timer, s.pending h = some timer →
    ∃ n, (Timer.armed (config h).maximumTimeToWait (config h).timerId (s.openedAt h)).after n =
      some timer

/-- An expiry is one of a timer in the queue. -/
theorem step_expires {h : η} {missed : Nat} (hstep : step config s (.expires h missed) = some s') :
    ∃ timer, s.pending h = some timer ∧ Due timer missed s.now ∧
      s' = { s with pending := Function.update s.pending h (timer.after (missed + 1)) } := by
  simp only [step] at hstep
  split at hstep
  · cases hstep
  · rename_i timer hpending
    split at hstep
    · rename_i hdue
      exact ⟨timer, hpending, hdue, (Option.some.inj hstep).symm⟩
    · cases hstep

/-- Every step keeps the timers on schedule. -/
theorem OnSchedule.step {event : TimerEvent η} (hs : OnSchedule config s)
    (hstep : step config s event = some s') : OnSchedule config s' := by
  intro h timer htimer
  cases event with
  | elapses time =>
      simp only [TimerQueue.step] at hstep
      split at hstep
      · obtain rfl := Option.some.inj hstep
        exact hs h timer htimer
      · cases hstep
  | opens g =>
      obtain rfl := Option.some.inj hstep
      by_cases hg : h = g
      · subst hg
        refine ⟨0, ?_⟩
        simpa [Timer.after] using htimer
      · simp only [Function.update_of_ne hg] at htimer ⊢
        exact hs h timer htimer
  | expires g missed =>
      obtain ⟨last, hlast, -, rfl⟩ := step_expires hstep
      by_cases hg : h = g
      · subst hg
        obtain ⟨n, hn⟩ := hs h last hlast
        refine ⟨n + (missed + 1), ?_⟩
        rw [Timer.after_add, hn]
        simpa using htimer
      · simp only [Function.update_of_ne hg] at htimer
        exact hs h timer htimer
  | cancels g =>
      obtain rfl := Option.some.inj hstep
      by_cases hg : h = g
      · subst hg
        simp at htimer
      · simp only [Function.update_of_ne hg] at htimer
        exact hs h timer htimer

/-- In every run the timers stay on schedule. -/
theorem run_onSchedule {time : ℚ} {events : List (TimerEvent η)}
    (hrun : run (step config) (start time) events = some s) : OnSchedule config s := by
  refine run_invariant (fun _ _ _ h hstep => h.step hstep) ?_ hrun
  intro h timer htimer
  cases htimer

end TimerQueue

/-! ## Idle connections -/

/-- What `handle_timeout` does. -/
inductive TimeoutResult
  /-- The argument is not that of its timer. -/
  | foreign
  | active
  /-- It closes the connection. -/
  | logsOut
deriving DecidableEq

/-- The second test of `handle_timeout`: the last activity lies too far back. -/
def TimedOut (maximumTimeToWait : Nat) (lastActivityTime now : ℚ) : Prop :=
  maximumTimeToWait ≤ now - lastActivityTime

instance (maximumTimeToWait : Nat) (lastActivityTime now : ℚ) :
    Decidable (TimedOut maximumTimeToWait lastActivityTime now) :=
  inferInstanceAs (Decidable (_ ≤ _))

/-- `handle_timeout`; {lit}`none` when `act` is not the address of an `unsigned short` that
is alive. -/
def handleTimeout (memory : Memory) (config : TimerConfig) (lastActivityTime now : ℚ)
    (act : Address) : Option TimeoutResult :=
  (memory.object act).map fun sui =>
    if sui = config.timerId then
      if TimedOut config.maximumTimeToWait lastActivityTime now then .logsOut else .active
    else .foreign

/-- The schedule has an expiry that finds the connection idle, no later than one interval
or one second after it has become so. -/
def Recurs (maximumTimeToWait : Nat) (timerId : UInt16) (openedAt t : ℚ) : Prop :=
  ∃ n timer, (Timer.armed maximumTimeToWait timerId openedAt).after n = some timer ∧
    TimedOut maximumTimeToWait (openedAt + t) timer.expiry ∧
    timer.expiry ≤ openedAt + t + maximumTimeToWait + (max 1 (maximumTimeToWait / 60) : Nat)

section Recurrence

variable {maximumTimeToWait : Nat} {timerId : UInt16} {openedAt t : ℚ}

/-- The interval is zero for less than a minute, and at least a second for more. -/
theorem interval_pos_iff : (0 : ℚ) < (maximumTimeToWait / 60 : Nat) ↔ 60 ≤ maximumTimeToWait := by
  rw [Nat.cast_pos]
  omega

/-- A timer with an interval expires in every stretch of that length. -/
theorem exists_expiry {timer : Timer} (hpos : 0 < timer.interval) (ht : 0 ≤ t) :
    ∃ n next, timer.after n = some next ∧ timer.expiry + t ≤ next.expiry ∧
      next.expiry < timer.expiry + t + timer.interval := by
  have hlow : t ≤ ⌈t / timer.interval⌉₊ * timer.interval :=
    (div_le_iff₀ hpos).mp (Nat.le_ceil _)
  have hhigh : ⌈t / timer.interval⌉₊ * timer.interval < t + timer.interval := by
    have hceil := Nat.ceil_lt_add_one (div_nonneg ht hpos.le)
    calc (⌈t / timer.interval⌉₊ : ℚ) * timer.interval
        < (t / timer.interval + 1) * timer.interval := by gcongr
      _ = t + timer.interval := by field_simp
  refine ⟨⌈t / timer.interval⌉₊, _, Timer.after_eq_some_iff.mpr ⟨Or.inr hpos, rfl⟩, ?_, ?_⟩
  · dsimp only
    linarith
  · dsimp only
    linarith

/-- A timer of less than a minute expires once, after `m_maximumTimeToWait`. -/
theorem expiry_of_short {n : Nat} {timer : Timer} (hshort : maximumTimeToWait < 60)
    (htimer : (Timer.armed maximumTimeToWait timerId openedAt).after n = some timer) :
    timer.expiry = openedAt + maximumTimeToWait := by
  obtain ⟨hn, rfl⟩ := Timer.after_eq_some_iff.mp htimer
  have hzero : ¬ (0 : ℚ) < (maximumTimeToWait / 60 : Nat) := by
    rw [interval_pos_iff]
    omega
  obtain rfl := hn.resolve_right hzero
  simp [Timer.armed]

/-- Timer recurrence.  For every time of the last activity behind `open`, the schedule has
an expiry that finds the connection idle in time if and only if `m_maximumTimeToWait` is at
least a minute or the activity was at the time of `open` itself; for less than a minute no
expiry finds a connection idle on which anything was received. -/
theorem timer_recurrence_iff (ht : 0 ≤ t) :
    (Recurs maximumTimeToWait timerId openedAt t ↔ 60 ≤ maximumTimeToWait ∨ t = 0) ∧
      (maximumTimeToWait < 60 → 0 < t → ∀ n timer,
        (Timer.armed maximumTimeToWait timerId openedAt).after n = some timer →
          ¬ TimedOut maximumTimeToWait (openedAt + t) timer.expiry) := by
  have hnever : maximumTimeToWait < 60 → 0 < t → ∀ n timer,
      (Timer.armed maximumTimeToWait timerId openedAt).after n = some timer →
        ¬ TimedOut maximumTimeToWait (openedAt + t) timer.expiry := by
    intro hshort hlater n timer htimer
    rw [TimedOut, expiry_of_short hshort htimer]
    linarith
  refine ⟨⟨?_, ?_⟩, hnever⟩
  · rintro ⟨n, timer, htimer, htimeout, -⟩
    by_contra hnot
    have hshort : maximumTimeToWait < 60 := by omega
    have hlater : 0 < t := lt_of_le_of_ne ht fun h => hnot (Or.inr h.symm)
    exact hnever hshort hlater n timer htimer htimeout
  · rintro (hlong | rfl)
    · obtain ⟨n, timer, htimer, hlow, hhigh⟩ := @exists_expiry t
        (Timer.armed maximumTimeToWait timerId openedAt) (interval_pos_iff.mpr hlong) ht
      have hwindow : ((maximumTimeToWait / 60 : Nat) : ℚ) ≤
          (max 1 (maximumTimeToWait / 60) : Nat) := Nat.cast_le.mpr (le_max_right _ _)
      simp only [Timer.armed] at hlow hhigh
      refine ⟨n, timer, htimer, ?_, ?_⟩
      · rw [TimedOut]
        linarith
      · linarith
    · have hwindow : (1 : ℚ) ≤ (max 1 (maximumTimeToWait / 60) : Nat) :=
        Nat.one_le_cast.mpr (le_max_left _ _)
      refine ⟨0, _, rfl, ?_, ?_⟩ <;> simp only [TimedOut, Timer.armed] <;> linarith

/-- The default timer and an activity a second after `open`. -/
theorem timer_recurrence_default :
    Recurs maxClientTimeout procTimerId 0 1 ↔ 60 ≤ maxClientTimeout ∨ (1 : ℚ) = 0 :=
  (timer_recurrence_iff (by norm_num)).1

/-- With half a minute, the connection that sends something in the first second stays. -/
theorem halfMinute_not_recurs :
    ¬ ∀ (maximumTimeToWait : Nat) (timerId : UInt16) (openedAt t : ℚ), 1 ≤ maximumTimeToWait →
      0 ≤ t → Recurs maximumTimeToWait timerId openedAt t := by
  intro hclaim
  obtain ⟨n, timer, htimer, htimeout, -⟩ := hclaim 30 procTimerId 0 1 (by norm_num) (by norm_num)
  rw [TimedOut, expiry_of_short (by norm_num) htimer] at htimeout
  norm_num at htimeout

end Recurrence

/-! ## The argument of the timer -/

namespace TimerQueue

/-- `handle_timeout` reads an object that is alive and finds `timer_id` in it. -/
def Recognises (memory : Memory) (config : TimerConfig) (lastActivityTime now : ℚ)
    (act : Address) : Prop :=
  ∃ result, handleTimeout memory config lastActivityTime now act = some result ∧
    result ≠ .foreign

theorem recognises_iff {memory : Memory} {config : TimerConfig} {lastActivityTime now : ℚ}
    {act : Address} :
    Recognises memory config lastActivityTime now act ↔
      memory.object act = some config.timerId := by
  unfold Recognises handleTimeout
  cases hobject : memory.object act with
  | none => simp
  | some sui =>
      by_cases hsui : sui = config.timerId
      · simp only [hsui, Option.map_some, if_true, Option.some.injEq, exists_eq_left', iff_true]
        split <;> decide
      · simp [hsui]

variable {η : Type} [DecidableEq η] {config : η → TimerConfig} {s s' : TimerQueue η}

/-- The argument of the timer.  In every run of the timer queue, whenever the timer of a
handler expires, `handle_timeout` reads an object that is alive and finds `timer_id` there
if and only if the number `timer_id` is the address of a living `unsigned short` with that
value.  It is not for the `timer_id` of either class, which is null. -/
theorem timer_token_iff {time : ℚ} {events : List (TimerEvent η)} {h : η} {missed : Nat}
    (hrun : run (step config) (start time) events = some s)
    (hexpires : step config s (.expires h missed) = some s') :
    ∃ timer, s.pending h = some timer ∧ timer.act = toPointer (config h).timerId ∧
      ∀ (memory : Memory) (lastActivityTime : ℚ),
        (Recognises memory (config h) lastActivityTime s.now timer.act ↔
          memory.object (toPointer (config h).timerId) = some (config h).timerId) ∧
        ((config h).timerId = procTimerId ∨ (config h).timerId = authMgrTimerId →
          handleTimeout memory (config h) lastActivityTime s.now timer.act = none) := by
  obtain ⟨timer, hpending, -, -⟩ := step_expires hexpires
  obtain ⟨n, hn⟩ := run_onSchedule hrun h timer hpending
  have hact : timer.act = toPointer (config h).timerId := Timer.after_act hn
  refine ⟨timer, hpending, hact, fun memory lastActivityTime => ⟨?_, fun hid => ?_⟩⟩
  · rw [recognises_iff, hact]
  · have hnull : toPointer (config h).timerId = 0 := by
      rcases hid with hid | hid <;> rw [hid] <;> rfl
    rw [handleTimeout, hact, hnull, memory.null, Option.map_none]

/-- The timer of a handler with the source's constants. -/
def defaultConfig (_ : Unit) : TimerConfig where
  maximumTimeToWait := maxClientTimeout
  timerId := procTimerId

/-- Its queue half an hour after `open`. -/
def halfHour : TimerQueue Unit where
  now := 1800
  pending := fun _ => some (Timer.armed maxClientTimeout procTimerId 0)
  openedAt := fun _ => 0

theorem run_halfHour :
    run (step defaultConfig) (start 0) [.opens (), .elapses 1800] = some halfHour := by
  have hpast : (0 : ℚ) ≤ 1800 := by norm_num
  simp only [run, step, start, halfHour, defaultConfig, hpast, if_true, Option.bind_some,
    zero_add, Option.some.injEq, TimerQueue.mk.injEq, true_and]
  constructor <;> exact Function.update_eq_const_of_subsingleton _ _ _

/-- It expires then. -/
theorem halfHour_expires : ∃ s', step defaultConfig halfHour (.expires () 0) = some s' := by
  have hdue : Due (Timer.armed maxClientTimeout procTimerId 0) 0 1800 := by
    refine ⟨by norm_num [Timer.armed, maxClientTimeout], fun next hnext => ?_⟩
    obtain ⟨-, rfl⟩ := Timer.after_eq_some_iff.mp hnext
    norm_num [Timer.armed, maxClientTimeout]
  exact ⟨_, if_pos hdue⟩

theorem timer_token_halfHour :
    ∃ timer, halfHour.pending () = some timer ∧ ∀ memory lastActivityTime,
      handleTimeout memory (defaultConfig ()) lastActivityTime halfHour.now timer.act = none := by
  obtain ⟨s', hexpires⟩ := halfHour_expires
  obtain ⟨timer, hpending, -, htimeout⟩ := timer_token_iff run_halfHour hexpires
  exact ⟨timer, hpending, fun memory last => (htimeout memory last).2 (Or.inl rfl)⟩

/-- The first expiry reads through the null pointer. -/
theorem halfHour_not_recognised :
    ¬ ∀ (config : Unit → TimerConfig) (time : ℚ) (events : List (TimerEvent Unit))
      (s s' : TimerQueue Unit) (missed : Nat) (memory : Memory) (lastActivityTime : ℚ),
      run (step config) (start time) events = some s →
      step config s (.expires () missed) = some s' →
      ∃ timer, s.pending () = some timer ∧
        Recognises memory (config ()) lastActivityTime s.now timer.act := by
  intro hclaim
  obtain ⟨s', hexpires⟩ := halfHour_expires
  obtain ⟨timer, hpending, hrecognises⟩ := hclaim defaultConfig 0 _ halfHour s' 0
    Memory.empty 0 run_halfHour hexpires
  rw [recognises_iff] at hrecognises
  cases hrecognises

end TimerQueue

end Dispatch

end CciDaemon
