import CciDaemon.Daemon.ServiceLoop

/-!
# Daemon - The heartbeat

While its log is open the service loop writes a message every `sleep_time` seconds.  A
signal can end a `sleep` early; what is left of it is slept before the next message, and
the configuration may be read any number of times in between.

Main results:

- Definition `Observation`: what is seen of the loop, its sleeps and its messages.
- Definition `Heartbeat`: what is slept in front of every message.
- Theorem `step_beats`: what is left to sleep and what was slept since the last message
  add up to `sleep_time`.
- Theorem `heartbeat`: the sleeps and messages of every run.
-/

namespace CciDaemon

open Transition

namespace ServiceLoop

/-- What is seen of the loop. -/
inductive Observation
  /-- A call of `sleep`, with its argument and its result. -/
  | slept (asked left : Nat)
  /-- The message `working hard.....`. -/
  | workingHard
deriving DecidableEq

/-- The seconds that the sleeps of a list took. -/
def secondsSlept : List Observation → Nat
  | [] => 0
  | .slept asked left :: os => (asked - left) + secondsSlept os
  | .workingHard :: os => secondsSlept os

/-- Between two consecutive messages, and in front of the first one, exactly `sleep_time`
seconds are slept. -/
def Heartbeat (os : List Observation) : Prop :=
  ∀ before between after, os = before ++ between ++ .workingHard :: after →
    before = [] ∨ (∃ init, before = init ++ [.workingHard]) →
    .workingHard ∉ between → secondsSlept between = sleepTime

/-- Every call of `sleep` has an argument from 1 to `sleep_time`. -/
def SleepsInRange (os : List Observation) : Prop :=
  ∀ asked left, .slept asked left ∈ os → 1 ≤ asked ∧ asked ≤ sleepTime

/-! ## Seconds since the last message -/

/-- The seconds slept since the last message, when `seconds` were slept before. -/
def elapsed (seconds : Nat) : List Observation → Nat
  | [] => seconds
  | .slept asked left :: os => elapsed (seconds + (asked - left)) os
  | .workingHard :: os => elapsed 0 os

theorem elapsed_append (seconds : Nat) (os os' : List Observation) :
    elapsed seconds (os ++ os') = elapsed (elapsed seconds os) os' := by
  induction os generalizing seconds with
  | nil => rfl
  | cons o os ih => cases o <;> exact ih _

/-- Without a message in between, the seconds add up. -/
theorem elapsed_of_notMem {seconds : Nat} {os : List Observation} (h : .workingHard ∉ os) :
    elapsed seconds os = seconds + secondsSlept os := by
  induction os generalizing seconds with
  | nil => rfl
  | cons o os ih =>
      have htail : .workingHard ∉ os := fun hmem => h (List.mem_cons_of_mem _ hmem)
      cases o with
      | slept asked left =>
          rw [elapsed, ih htail, secondsSlept]
          omega
      | workingHard => exact absurd List.mem_cons_self h

/-- At every message `sleep_time` seconds have been slept since the one before. -/
def Punctual (os : List Observation) : Prop :=
  ∀ before after, os = before ++ .workingHard :: after → elapsed 0 before = sleepTime

/-- What was slept since the last message is what was slept between two. -/
theorem Punctual.between {os : List Observation} (h : Punctual os) : Heartbeat os := by
  intro before between after hos hbefore hbetween
  have helapsed := h (before ++ between) after hos
  have hzero : elapsed 0 before = 0 := by
    rcases hbefore with rfl | ⟨init, rfl⟩
    · rfl
    · rw [elapsed_append]
      rfl
  rw [elapsed_append, hzero, elapsed_of_notMem hbetween, Nat.zero_add] at helapsed
  exact helapsed

/-- One more observation. -/
theorem Punctual.concat {os : List Observation} {o : Observation} (h : Punctual os)
    (ho : o = .workingHard → elapsed 0 os = sleepTime) : Punctual (os ++ [o]) := by
  intro before after heq
  rcases List.eq_nil_or_concat after with rfl | ⟨init, last, rfl⟩
  · obtain ⟨rfl, hlast⟩ := List.append_inj' heq rfl
    exact ho (List.cons.inj hlast).1
  · rw [List.concat_eq_append, ← List.cons_append, ← List.append_assoc] at heq
    obtain ⟨hos, -⟩ := List.append_inj' heq rfl
    exact h before init hos

/-! ## The invariant -/

namespace State

/-- What a step shows. -/
def shows (s : State) : Event → List Observation
  | .sighup => []
  | .sleeps left => [.slept s.unslept left]
  | .proceeds => if s.pc = .logMessage then [.workingHard] else []

/-- The loop with its log open, behind the observations `os`. -/
structure Beats (s : State) (os : List Observation) : Prop where
  opened : s.opened = true
  /-- What was slept and what is left to sleep; at the message `unslept` is set again. -/
  elapsed_add : elapsed 0 os + (if s.pc = .logMessage then 0 else s.unslept) = sleepTime
  logMessage : s.pc = .logMessage → s.unslept = sleepTime
  sleep : s.pc = .sleep → 1 ≤ s.unslept
  punctual : Punctual os
  inRange : SleepsInRange os

variable {s t : State} {os : List Observation}

theorem installed_beats : (installed true).Beats [] where
  opened := rfl
  elapsed_add := rfl
  logMessage := by simp [installed]
  sleep := by simp [installed, sleepTime]
  punctual := by simp [Punctual]
  inRange := by simp [SleepsInRange]

/-- A statement that does not touch `unslept` and leads to neither the message nor the next
`sleep`. -/
theorem Beats.of_goto (h : s.Beats os) (hpc : s.pc ≠ .logMessage) (hopened : t.opened = s.opened)
    (hunslept : t.unslept = s.unslept) (hlog : t.pc ≠ .logMessage)
    (hsleep : t.pc = .sleep → 1 ≤ s.unslept) : t.Beats os where
  opened := hopened.trans h.opened
  elapsed_add := by simpa [hpc, hlog, hunslept] using h.elapsed_add
  logMessage := fun heq => absurd heq hlog
  sleep := fun heq => hunslept ▸ hsleep heq
  punctual := h.punctual
  inRange := h.inRange

/-- The message is written, and the next `sleep` is a whole one. -/
theorem Beats.message (h : s.Beats os) (hpc : s.pc = .logMessage) :
    (s.goto .sleep).Beats (os ++ [.workingHard]) where
  opened := h.opened
  elapsed_add := by simpa [elapsed_append, elapsed, goto] using h.logMessage hpc
  logMessage := by simp [goto]
  sleep := by simp [goto, h.logMessage hpc, sleepTime]
  punctual := h.punctual.concat fun _ => by simpa [hpc] using h.elapsed_add
  inRange := by
    intro asked left hmem
    exact h.inRange asked left (by simpa using hmem)

/-- A `sleep` that returns `left`. -/
theorem Beats.sleeps (h : s.Beats os) (hpc : s.pc = .sleep) {left : Nat}
    (hleft : left ≤ s.unslept) :
    ({ s.goto .testOpened with unslept := left } : State).Beats
      (os ++ [.slept s.unslept left]) := by
  have hadd : elapsed 0 os + s.unslept = sleepTime := by simpa [hpc] using h.elapsed_add
  refine ⟨h.opened, ?_, by simp [goto], by simp [goto], h.punctual.concat (by simp), ?_⟩
  · simp only [elapsed_append, elapsed, goto, reduceCtorEq, if_false]
    omega
  · intro asked left' hmem
    rcases List.mem_append.mp hmem with hmem | hmem
    · exact h.inRange asked left' hmem
    · simp only [List.mem_singleton, Observation.slept.injEq] at hmem
      have hpos := h.sleep hpc
      omega

/-- Every statement of the loop keeps the beat. -/
theorem statement_beats (h : s.Beats os) (hpc : s.pc ≠ .sleep) :
    s.statement.Beats (os ++ s.shows .proceeds) := by
  have hgoto : ∀ pc, s.pc ≠ .logMessage → pc ≠ .logMessage → pc ≠ .sleep → (s.goto pc).Beats os :=
    fun pc hs hlog hsleep => h.of_goto hs rfl rfl hlog fun heq => absurd heq hsleep
  unfold statement shows
  cases heq : s.pc with
  | sleep => exact absurd heq hpc
  | testOpened =>
      simp only [h.opened, if_true, reduceCtorEq, if_false, List.append_nil]
      exact hgoto _ (by simp [heq]) (by simp) (by simp)
  | testHup =>
      simp only [reduceCtorEq, if_false, List.append_nil]
      split <;> exact hgoto _ (by simp [heq]) (by simp) (by simp)
  | openlog | syslog | closelog | closeLog | openLog | readingConfig =>
      simp only [reduceCtorEq, if_false, List.append_nil]
      exact hgoto _ (by simp [heq]) (by simp) (by simp)
  | clearHup | readConfig =>
      simp only [reduceCtorEq, if_false, List.append_nil]
      exact h.of_goto (by simp [heq]) rfl rfl (by simp [goto]) (by simp [goto])
  | testUnslept =>
      simp only [reduceCtorEq, if_false, List.append_nil]
      have hadd : elapsed 0 os + s.unslept = sleepTime := by simpa [heq] using h.elapsed_add
      split
      · rename_i hzero
        refine ⟨h.opened, ?_, fun _ => rfl, by simp [goto], h.punctual, h.inRange⟩
        simpa [goto, hzero] using hadd
      · rename_i hzero
        exact h.of_goto (by simp [heq]) rfl rfl (by simp [goto]) fun _ => Nat.pos_of_ne_zero hzero
  | logMessage =>
      simp only [if_true]
      exact h.message heq

/-- What is left to sleep and what was slept since the last message add up, after every
step. -/
theorem step_beats (h : s.Beats os) {event : Event} (hstep : step s event = some t) :
    t.Beats (os ++ s.shows event) := by
  cases event with
  | sighup =>
      obtain rfl := Option.some.inj hstep
      simp only [shows, List.append_nil]
      exact ⟨h.opened, h.elapsed_add, h.logMessage, h.sleep, h.punctual, h.inRange⟩
  | sleeps left =>
      simp only [step] at hstep
      split at hstep
      · rename_i hsleep
        obtain rfl := Option.some.inj hstep
        exact h.sleeps hsleep.1 hsleep.2
      · cases hstep
  | proceeds =>
      simp only [step] at hstep
      split at hstep
      · cases hstep
      · rename_i hpc
        obtain rfl := Option.some.inj hstep
        exact statement_beats h hpc

/-- The heartbeat.  In every run of the service loop with the log open, with any results of
`sleep` and any number of signals between any two of its steps, every `sleep` is called with
an argument from 1 to 15, and the seconds slept between two consecutive messages, and before
the first, are exactly 15. -/
theorem heartbeat {events : List Event} (hrun : run step (installed true) events = some s) :
    SleepsInRange (emitted step shows (installed true) events) ∧
      Heartbeat (emitted step shows (installed true) events) := by
  have hbeats : s.Beats ([] ++ emitted step shows (installed true) events) :=
    emitted_invariant (I := Beats) (fun _ _ _ _ h hstep => step_beats h hstep) installed_beats hrun
  exact ⟨hbeats.inRange, hbeats.punctual.between⟩

/-- A sleep that a signal interrupts, the reload, and the rest of the sleep. -/
def interruptedSleep : List Event :=
  [.sighup, .sleeps 9, .proceeds, .proceeds, .proceeds, .proceeds, .proceeds, .proceeds,
    .proceeds, .proceeds, .proceeds, .proceeds, .proceeds, .sleeps 0, .proceeds, .proceeds,
    .proceeds, .proceeds]

theorem heartbeat_interruptedSleep :
    ∃ s, run step (installed true) interruptedSleep = some s ∧
      emitted step shows (installed true) interruptedSleep =
        [.slept 15 9, .slept 9 0, .workingHard] ∧
      SleepsInRange (emitted step shows (installed true) interruptedSleep) ∧
      Heartbeat (emitted step shows (installed true) interruptedSleep) :=
  ⟨_, rfl, rfl, heartbeat (show run step (installed true) interruptedSleep = some _ from rfl)⟩

end State

end ServiceLoop

end CciDaemon
